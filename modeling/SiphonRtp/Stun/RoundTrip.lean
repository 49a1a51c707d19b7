import SiphonRtp.Stun.Message

/-!
# What a built message is read back as

`MessageBuilder.finish` emits a header that declares exactly the octets behind it, and those are
whole attributes: the ones added, then MESSAGE-INTEGRITY and FINGERPRINT where asked for
(`finish_header`). A socket address survives its XOR coding up to the flow information and scope
that the coding has no room for (`decodeXorMappedAddress_encode`).

`codec_round_trip` says the same of a message built from any list of attributes, with or without
either trailer, as long as its length field can hold its length; `parse_built_wrapped` is what
becomes of one whose trailers do not fit any more.
-/

set_option autoImplicit false

namespace SiphonRtp.Stun

open Machine Datapath

variable (digests : Digests) (messageType : UInt16) (id : TransactionId)

/-- The hash a message body is signed with. -/
def integrity (key body : Bytes) : Vector UInt8 20 :=
  digests.hmacSha1 key (header messageType (body.length + 24) id ++ body)

/-- The checksum octets of a message body. -/
def checksum (body : Bytes) : Bytes :=
  toBe 4 (digests.crc32 (header messageType (body.length + 8) id ++ body) ^^^ fingerprintXor).toNat

def withIntegrity (key body : Bytes) : Bytes :=
  body ++ encodeAttribute attrMessageIntegrity (integrity digests messageType id key body).toList

def withFingerprint (body : Bytes) : Bytes :=
  body ++ encodeAttribute attrFingerprint (checksum digests messageType id body)

/-- A body with both trailers, as every Binding message carries it. -/
def signed (key body : Bytes) : Bytes :=
  withFingerprint digests messageType id (withIntegrity digests messageType id key body)

/-! ### The builder -/

theorem attribute_header (length : ℕ) (body : Bytes) (attrType : UInt16) (value : Bytes) :
    (MessageBuilder.mk (header messageType length id ++ body)).attribute attrType value =
      ⟨header messageType length id ++ (body ++ encodeAttribute attrType value)⟩ := by
  simp [MessageBuilder.attribute, pushAttribute]

/-- A finished message: the header declares the octets behind it. -/
theorem finish_header (length : ℕ) (body : Bytes) (integrityKey : Option Bytes)
    (fingerprint : Bool) :
    (MessageBuilder.mk (header messageType length id ++ body)).finish digests integrityKey
        fingerprint =
      let body := match integrityKey with
        | some key => withIntegrity digests messageType id key body
        | none => body
      let body := if fingerprint then withFingerprint digests messageType id body else body
      header messageType body.length id ++ body := by
  have hlength (declared : ℕ) (octets : Bytes) :
      (header messageType declared id ++ octets).length - headerLen = octets.length := by
    simp
  cases integrityKey with
  | none =>
    cases fingerprint with
    | false => simp [MessageBuilder.finish, setLength_header]
    | true =>
      simp only [MessageBuilder.finish, setLength_header, hlength, pushAttribute, if_true,
        List.append_assoc, withFingerprint, checksum]
  | some key =>
    cases fingerprint with
    | false =>
      simp only [MessageBuilder.finish, setLength_header, hlength, pushAttribute,
        Bool.false_eq_true, if_false, List.append_assoc, withIntegrity, integrity]
    | true =>
      simp only [MessageBuilder.finish, setLength_header, hlength, pushAttribute, if_true,
        List.append_assoc, withIntegrity, integrity, withFingerprint, checksum]

/-! ### Any list of attributes -/

/-- A message built from a list of attributes. -/
def built (entries : List Attribute) (integrityKey : Option Bytes) (fingerprint : Bool) : Bytes :=
  (entries.foldl (fun builder entry ↦ builder.attribute entry.1 entry.2)
    (MessageBuilder.new messageType id)).finish digests integrityKey fingerprint

/-- The octets of a list of attributes. -/
def encodeAttributes (entries : List Attribute) : Bytes :=
  entries.flatMap fun entry ↦ encodeAttribute entry.1 entry.2

/-- The integrity attribute of a body, where there is a key. -/
def integrityEntries (integrityKey : Option Bytes) (body : Bytes) : List Attribute :=
  match integrityKey with
  | some key => [(attrMessageIntegrity, (integrity digests messageType id key body).toList)]
  | none => []

/-- The fingerprint attribute of a body, where it is asked for. -/
def fingerprintEntries (fingerprint : Bool) (body : Bytes) : List Attribute :=
  if fingerprint then [(attrFingerprint, checksum digests messageType id body)] else []

/-- The attributes a finished message carries: those added, then the integrity, then the
fingerprint over both. -/
def builtEntries (entries : List Attribute) (integrityKey : Option Bytes) (fingerprint : Bool) :
    List Attribute :=
  let secured := entries ++ integrityEntries digests messageType id integrityKey
    (encodeAttributes entries)
  secured ++ fingerprintEntries digests messageType id fingerprint (encodeAttributes secured)

/-- The octets that the trailing attributes add to a body. -/
def trailerLength (integrityKey : Option Bytes) (fingerprint : Bool) : ℕ :=
  (if integrityKey.isSome then 24 else 0) + if fingerprint then 8 else 0

theorem encodeAttributes_append (first second : List Attribute) :
    encodeAttributes (first ++ second) = encodeAttributes first ++ encodeAttributes second :=
  List.flatMap_append

theorem encodeAttributes_singleton (entry : Attribute) :
    encodeAttributes [entry] = encodeAttribute entry.1 entry.2 :=
  List.append_nil _

/-- The two fields at the head of the first attribute. -/
theorem exists_encodeAttributes_cons (entry : Attribute) (entries : List Attribute) :
    ∃ tail, encodeAttributes (entry :: entries) =
      toBe 2 entry.1.toNat ++ (toBe 2 entry.2.length ++ tail) := by
  refine ⟨entry.2 ++ List.replicate (padding entry.2.length) 0 ++ encodeAttributes entries, ?_⟩
  rfl

theorem encodes_encodeAttributes {entries : List Attribute}
    (hlength : (encodeAttributes entries).length < 2 ^ 16) :
    Encodes (encodeAttributes entries) entries := by
  induction entries with
  | nil => exact .nil
  | cons entry entries ih =>
    have hshape : encodeAttributes (entry :: entries) =
        encodeAttribute entry.1 entry.2 ++ encodeAttributes entries := List.flatMap_cons
    rw [hshape, List.length_append, length_encodeAttribute] at hlength
    exact (encodes_encodeAttribute (by omega)).append (ih (by omega))

theorem foldl_attribute (entries : List Attribute) (length : ℕ) (body : Bytes) :
    entries.foldl (fun builder entry ↦ MessageBuilder.attribute builder entry.1 entry.2)
        ⟨header messageType length id ++ body⟩ =
      ⟨header messageType length id ++ (body ++ encodeAttributes entries)⟩ := by
  induction entries generalizing body with
  | nil => rw [encodeAttributes, List.flatMap_nil, List.append_nil]; rfl
  | cons entry entries ih =>
    rw [List.foldl_cons, attribute_header, ih, List.append_assoc]
    rfl

/-- A finished message is a header that declares the octets of its attributes, and those octets. -/
theorem built_eq (entries : List Attribute) (integrityKey : Option Bytes) (fingerprint : Bool) :
    let body := encodeAttributes
      (builtEntries digests messageType id entries integrityKey fingerprint)
    built digests messageType id entries integrityKey fingerprint =
      header messageType body.length id ++ body := by
  intro body
  have hnew : MessageBuilder.new messageType id = ⟨header messageType 0 id ++ []⟩ := by
    rw [List.append_nil, MessageBuilder.new]
  have hsecured : (match integrityKey with
      | some key => withIntegrity digests messageType id key (encodeAttributes entries)
      | none => encodeAttributes entries) =
      encodeAttributes (entries ++ integrityEntries digests messageType id integrityKey
        (encodeAttributes entries)) := by
    cases integrityKey with
    | none => rw [integrityEntries, List.append_nil]
    | some key =>
      dsimp only
      rw [integrityEntries, encodeAttributes_append, encodeAttributes_singleton, withIntegrity]
  rw [built, hnew, foldl_attribute, List.nil_append, finish_header]
  rw [hsecured]
  have hbody : body = if fingerprint then
      withFingerprint digests messageType id (encodeAttributes (entries ++
        integrityEntries digests messageType id integrityKey (encodeAttributes entries)))
      else encodeAttributes (entries ++
        integrityEntries digests messageType id integrityKey (encodeAttributes entries)) := by
    simp only [body, builtEntries, fingerprintEntries]
    cases fingerprint with
    | false => rw [if_neg (by decide), if_neg (by decide), List.append_nil]
    | true =>
      rw [if_pos rfl, if_pos rfl, encodeAttributes_append, encodeAttributes_singleton,
        withFingerprint]
  rw [hbody]

theorem length_encodeAttributes_builtEntries (entries : List Attribute)
    (integrityKey : Option Bytes) (fingerprint : Bool) :
    (encodeAttributes (builtEntries digests messageType id entries integrityKey
        fingerprint)).length =
      (encodeAttributes entries).length + trailerLength integrityKey fingerprint := by
  have hintegrity (body : Bytes) :
      (encodeAttributes (integrityEntries digests messageType id integrityKey body)).length =
        if integrityKey.isSome then 24 else 0 := by
    cases integrityKey with
    | none => rfl
    | some key => rw [integrityEntries, encodeAttributes_singleton, length_integrity]; rfl
  have hfingerprint (body : Bytes) :
      (encodeAttributes (fingerprintEntries digests messageType id fingerprint body)).length =
        if fingerprint then 8 else 0 := by
    cases fingerprint with
    | false => rfl
    | true =>
      rw [fingerprintEntries, if_pos rfl, encodeAttributes_singleton, length_encodeAttribute,
        checksum, length_toBe]
      rfl
  rw [builtEntries, encodeAttributes_append, encodeAttributes_append, List.length_append,
    List.length_append, hintegrity, hfingerprint, trailerLength, Nat.add_assoc]

/-- A built message is read back as long as its length field can hold its length. -/
theorem parse_built {entries : List Attribute} {integrityKey : Option Bytes} {fingerprint : Bool}
    (hlength : (encodeAttributes entries).length + trailerLength integrityKey fingerprint <
      2 ^ 16) :
    parse (built digests messageType id entries integrityKey fingerprint) =
      .ok ⟨messageType, id, builtEntries digests messageType id entries integrityKey
        fingerprint⟩ := by
  rw [← length_encodeAttributes_builtEntries digests messageType id] at hlength
  have hparse := parse_encodes messageType id (encodes_encodeAttributes hlength) hlength []
  rw [List.append_nil] at hparse
  rw [built_eq, hparse]

/-- A message built with a key passes the check with that key. -/
theorem verifyMessageIntegrity_built {entries : List Attribute} {fingerprint : Bool} (key : Bytes)
    (hother : ∀ entry ∈ entries, entry.1 ≠ attrMessageIntegrity)
    (hlength : (encodeAttributes entries).length + trailerLength (some key) fingerprint <
      2 ^ 16) :
    verifyMessageIntegrity digests
      (built digests messageType id entries (some key) fingerprint) key = true := by
  have hbody := length_encodeAttributes_builtEntries digests messageType id entries (some key)
    fingerprint
  rw [← hbody] at hlength
  have hencodes : Encodes (encodeAttributes entries) entries := by
    refine encodes_encodeAttributes ?_
    omega
  have hshape : encodeAttributes (builtEntries digests messageType id entries (some key)
      fingerprint) = encodeAttributes entries ++ (encodeAttribute attrMessageIntegrity
        (integrity digests messageType id key (encodeAttributes entries)).toList ++
          encodeAttributes (fingerprintEntries digests messageType id fingerprint
            (encodeAttributes (entries ++ integrityEntries digests messageType id (some key)
              (encodeAttributes entries))))) := by
    have hintegrity (body : Bytes) :
        encodeAttributes (integrityEntries digests messageType id (some key) body) =
          encodeAttribute attrMessageIntegrity
            (integrity digests messageType id key body).toList := encodeAttributes_singleton _
    rw [builtEntries, encodeAttributes_append, encodeAttributes_append, List.append_assoc,
      hintegrity]
  have htotal := congrArg List.length hshape
  rw [List.length_append, List.length_append, length_integrity] at htotal
  rw [built_eq, hshape,
    verifyMessageIntegrity_of_encodes digests key messageType id (hshape ▸ hlength) hencodes hother,
    decide_eq_true_iff]
  refine ⟨?_, ?_, rfl⟩
  · rw [← hshape]
    omega
  · rw [← hshape]
    omega

/-! ### Addresses -/

/-- An address without the fields that only mean something on its own host. -/
def plainAddress : SocketAddr → SocketAddr
  | .v4 ip port => .v4 ip port
  | .v6 ip port _ _ => .v6 ip port 0 0

theorem bitVec_toBe (count : ℕ) (bits : BitVec (8 * count)) :
    BitVec.ofNat (8 * count) (fromBe (toBe count bits.toNat)) = bits := by
  have hbound : bits.toNat < 256 ^ count := by
    have hlt := bits.isLt
    rwa [pow_mul] at hlt
  rw [fromBe_toBe, Nat.mod_eq_of_lt hbound, BitVec.ofNat_toNat, BitVec.setWidth_eq]

/-- The port field of an XOR address, behind its family octet. -/
theorem readU16_xorAddress (family : UInt8) (port : UInt16) (rest : Bytes) :
    readU16 (0 :: family :: toBe 2 port.toNat ++ rest) 2 = port := by
  have hright := readU16_append_right [0, family] (toBe 2 port.toNat ++ rest) 0
  rwa [readU16_toBe, UInt16.ofNat_toNat] at hright

theorem octet_xorAddress (family : UInt8) (port : UInt16) (rest : Bytes) :
    octet (0 :: family :: toBe 2 port.toNat ++ rest) 1 = family := rfl

theorem drop_xorAddress (family : UInt8) (port : UInt16) (rest : Bytes) :
    (0 :: family :: toBe 2 port.toNat ++ rest).drop 4 = rest :=
  List.drop_left' (by simp)

theorem decodeXorMappedAddress_encode (address : SocketAddr) :
    decodeXorMappedAddress (encodeXorMappedAddress address id) id =
      some (plainAddress address) := by
  cases address with
  | v4 ip port =>
    have hread (family : UInt8) (xport : UInt16) (bits : ℕ) :
        readU32 (0 :: family :: toBe 2 xport.toNat ++ toBe 4 bits) 4 = UInt32.ofNat bits := by
      have hright := readU32_append_right (0 :: family :: toBe 2 xport.toNat) (toBe 4 bits ++ []) 0
      rw [readU32_toBe] at hright
      simpa using hright
    unfold decodeXorMappedAddress encodeXorMappedAddress
    rw [readU16_xorAddress, hread, octet_xorAddress, if_neg (by simp), if_pos rfl, if_neg (by simp)]
    simp only [UInt32.ofNat_bitVecToNat, BitVec.xor_assoc, BitVec.xor_self, BitVec.xor_zero,
      SocketAddr.port, UInt16.xor_assoc, UInt16.xor_self, UInt16.xor_zero, plainAddress]
  | v6 ip port flowinfo scopeId =>
    have hbits (bits : BitVec 128) :
        BitVec.ofNat 128 (fromBe ((toBe 16 bits.toNat).take 16)) = bits := by
      rw [List.take_of_length_le (by simp)]
      exact bitVec_toBe 16 bits
    unfold decodeXorMappedAddress encodeXorMappedAddress
    rw [readU16_xorAddress, drop_xorAddress, octet_xorAddress, hbits, if_neg (by simp),
      if_neg (by decide), if_pos rfl, if_neg (by simp)]
    simp only [BitVec.xor_assoc, BitVec.xor_self, BitVec.xor_zero, SocketAddr.port,
      UInt16.xor_assoc, UInt16.xor_self, UInt16.xor_zero, plainAddress]

/-! ### The codec as a whole -/

/-- What is built is what is read: a message comes back with its type, its transaction id and its
attributes in order, followed by the integrity and the fingerprint that were asked for; a key it was
signed with verifies it; and an address comes back from its XOR coding under any transaction id.
Assumes: the length field can hold the octets of the attributes and of the trailers. -/
theorem codec_round_trip (entries : List Attribute) (integrityKey : Option Bytes)
    (fingerprint : Bool)
    (hother : ∀ entry ∈ entries, entry.1 ≠ attrMessageIntegrity ∧ entry.1 ≠ attrFingerprint)
    (hlength : (encodeAttributes entries).length + trailerLength integrityKey fingerprint <
      2 ^ 16) :
    parse (built digests messageType id entries integrityKey fingerprint) =
        .ok ⟨messageType, id, builtEntries digests messageType id entries integrityKey
          fingerprint⟩ ∧
      (∀ key, integrityKey = some key → verifyMessageIntegrity digests
        (built digests messageType id entries integrityKey fingerprint) key = true) ∧
      ∀ address, decodeXorMappedAddress (encodeXorMappedAddress address id) id =
        some (plainAddress address) := by
  refine ⟨parse_built digests messageType id hlength, fun key hkey ↦ ?_,
    decodeXorMappedAddress_encode id⟩
  subst hkey
  exact verifyMessageIntegrity_built digests messageType id key
    (fun entry hentry ↦ (hother entry hentry).1) hlength

/-- A username of three octets with a key and a fingerprint, over a hash and a checksum of zeros. -/
theorem codec_round_trip_username :
    parse (built ⟨fun _ _ ↦ Vector.replicate 20 0, fun _ ↦ 0⟩ bindingRequest
      (Vector.replicate 12 7) [(attrUsername, [0x61, 0x3A, 0x62])] (some [1]) true) =
        .ok ⟨bindingRequest, Vector.replicate 12 7, [(attrUsername, [0x61, 0x3A, 0x62]),
          (attrMessageIntegrity, List.replicate 20 0),
          (attrFingerprint, [0x53, 0x54, 0x55, 0x4E])]⟩ := by
  have hbuilt := (codec_round_trip ⟨fun _ _ ↦ Vector.replicate 20 0, fun _ ↦ 0⟩ bindingRequest
    (Vector.replicate 12 7) [(attrUsername, [0x61, 0x3A, 0x62])] (some [1]) true (by decide)
    (by decide)).1
  rw [hbuilt]
  decide

/-- A value of 65528 octets fits the length field but leaves no room for the integrity: the field
wraps to 20, inside the attribute. -/
theorem parse_built_wrapped (attrType : UInt16) {value : Bytes} (hvalue : value.length = 65528)
    (key : Bytes) :
    (encodeAttributes [(attrType, value)]).length < 2 ^ 16 ∧
      parse (built digests messageType id [(attrType, value)] (some key) false) =
        .error .badLength := by
  have hfits : (encodeAttributes [(attrType, value)]).length = 65532 := by
    rw [encodeAttributes_singleton, length_encodeAttribute, hvalue]
    rfl
  have htotal := length_encodeAttributes_builtEntries digests messageType id [(attrType, value)]
    (some key) false
  rw [hfits, show trailerLength (some key) false = 24 from rfl] at htotal
  obtain ⟨tail, hbody⟩ := exists_encodeAttributes_cons (attrType, value)
    ([] ++ integrityEntries digests messageType id (some key)
      (encodeAttributes [(attrType, value)]) ++ [])
  have hcut : attributes ((encodeAttributes (builtEntries digests messageType id
      [(attrType, value)] (some key) false)).take 20) = .error .badLength := by
    refine (congrArg (fun octets : Bytes ↦ attributes (octets.take 20)) hbody).trans ?_
    exact @attributes_cut attrType value (by omega) tail 20 (by omega) (by omega)
  have hwrapped : (UInt16.ofNat (65532 + 24)).toNat = 20 := by decide
  refine ⟨by omega, ?_⟩
  rw [built_eq, htotal]
  unfold parse
  rw [if_neg (by simp), readU32_header_cookie, if_neg (not_not.mpr rfl), readU16_header_length]
  rw [hwrapped, if_neg (by rw [List.length_append, length_header, htotal]; decide), List.drop_take,
    List.drop_left' (length_header _ _ _), Nat.add_sub_cancel_left, hcut]
  rfl

/-- An attribute of 65532 octets fits the length field, but not together with the integrity, and the
message is not read back. -/
theorem codec_round_trip_overflow :
    let entries : List Attribute := [(attrUsername, List.replicate 65528 0)]
    let digests : Digests := ⟨fun _ _ ↦ Vector.replicate 20 0, fun _ ↦ 0⟩
    (encodeAttributes entries).length < 2 ^ 16 ∧
      parse (built digests bindingRequest (Vector.replicate 12 0) entries (some []) false) =
        .error .badLength :=
  parse_built_wrapped _ bindingRequest _ attrUsername List.length_replicate []

end SiphonRtp.Stun
