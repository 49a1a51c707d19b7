import Mathlib.Data.Nat.Bitwise
import SiphonRtp.Machine.Octets

/-!
# Redundant text payloads

The RED payloads (RFC 2198) of `siphon-rtp-media/src/t140.rs`: `RedPacket::parse` over octets from
the network, and `RedBuilder::write_into`. A payload is a run of four-octet headers of redundant
blocks, the one-octet header of the primary block, and the data of the blocks in the order of their
headers.

`parse_writeInto`: what is built parses to the blocks put in, with payload types of seven bits and
timestamps as offsets to that of the primary block.
-/

set_option autoImplicit false

namespace SiphonRtp.Media

open Machine

/-- `MAX_RED_BLOCKS`. -/
def maxRedBlocks : ℕ := 32

/-- `MAX_TIMESTAMP_OFFSET`. -/
def maxTimestampOffset : UInt32 := ((1 : UInt32) <<< 14) - 1

/-- `MAX_BLOCK_LENGTH`. -/
def maxBlockLength : ℕ := 2 ^ 10 - 1

inductive RedError
  | truncated
  | blockLengthExceedsPayload (length remaining : ℕ)
  | tooManyBlocks (max : ℕ)
  | timestampOffsetTooLarge (offset : UInt32)
  | blockLengthTooLarge (length : ℕ)
deriving DecidableEq

/-- One block of a RED payload. -/
structure RedBlock where
  payloadType : UInt8
  /-- What the timestamp of the block lies before that of the primary one. -/
  timestampOffset : UInt32
  data : Bytes
deriving DecidableEq

/-- A parsed RED payload, with the oldest redundant block first. -/
structure RedPacket where
  redundant : List RedBlock
  primary : RedBlock
deriving DecidableEq

/-! ### Parsing -/

/-- The header of a redundant block. -/
structure RedHeader where
  payloadType : UInt8
  timestampOffset : UInt32
  length : ℕ

/-- The header that four octets hold. -/
def RedHeader.read (first second third fourth : UInt8) : RedHeader where
  payloadType := first &&& 0x7F
  timestampOffset := (second.toUInt32 <<< 6) ||| (third.toUInt32 >>> 2)
  length := (((third.toUInt32 &&& 0x03) <<< 8) ||| fourth.toUInt32).toNat

namespace RedPacket

/-- The first pass of `parse`, with the number of redundant blocks that it still takes: the headers,
the payload type of the primary block, and the octets after the headers. -/
def readHeaders : ℕ → Bytes → Except RedError (List RedHeader × UInt8 × Bytes)
  | _, [] => .error .truncated
  | left, first :: rest =>
    if first &&& 0x80 = 0 then .ok ([], first &&& 0x7F, rest)
    else
      match left with
      | 0 => .error (.tooManyBlocks maxRedBlocks)
      | left + 1 =>
        match rest with
        | second :: third :: fourth :: rest =>
          match readHeaders left rest with
          | .ok (headers, primary, rest) =>
            .ok (RedHeader.read first second third fourth :: headers, primary, rest)
          | .error error => .error error
        | _ => .error .truncated

/-- The second pass of `parse`: the data of the blocks, and the octets after them. -/
def readBlocks : List RedHeader → Bytes → Except RedError (List RedBlock × Bytes)
  | [], rest => .ok ([], rest)
  | header :: headers, rest =>
    if rest.length < header.length then
      .error (.blockLengthExceedsPayload header.length rest.length)
    else
      match readBlocks headers (rest.drop header.length) with
      | .ok (blocks, after) =>
        .ok (⟨header.payloadType, header.timestampOffset, rest.take header.length⟩ :: blocks, after)
      | .error error => .error error

/-- `RedPacket::parse`. -/
def parse (payload : Bytes) : Except RedError RedPacket :=
  match readHeaders maxRedBlocks payload with
  | .error error => .error error
  | .ok (headers, primary, rest) =>
    match readBlocks headers rest with
    | .error error => .error error
    | .ok (blocks, data) => .ok { redundant := blocks, primary := ⟨primary, 0, data⟩ }

end RedPacket

/-! ### Building -/

/-- A prior generation, with the timestamp that it was sent with. -/
structure RedGeneration where
  payloadType : UInt8
  rtpTimestamp : UInt32
  data : Bytes

structure RedBuilder where
  primaryPayloadType : UInt8
  primaryRtpTimestamp : UInt32
  primaryData : Bytes
  /-- The oldest generation first. -/
  redundant : List RedGeneration

namespace RedBuilder

variable (builder : RedBuilder)

/-- `validated_offset_length`. -/
def validatedOffsetLength (generation : RedGeneration) : Except RedError (UInt32 × ℕ) :=
  let offset := builder.primaryRtpTimestamp - generation.rtpTimestamp
  if maxTimestampOffset < offset then .error (.timestampOffsetTooLarge offset)
  else if maxBlockLength < generation.data.length then
    .error (.blockLengthTooLarge generation.data.length)
  else .ok (offset, generation.data.length)

/-- The header of a redundant block. -/
def headerWord (payloadType : UInt8) (offset : UInt32) (length : ℕ) : UInt32 :=
  ((1 : UInt32) <<< 31) ||| ((payloadType &&& 0x7F).toUInt32 <<< 24) ||| (offset <<< 10) |||
    UInt32.ofNat length

/-- The headers of the redundant blocks. -/
def headers : List RedGeneration → Except RedError Bytes
  | [] => .ok []
  | generation :: rest =>
    match builder.validatedOffsetLength generation with
    | .error error => .error error
    | .ok (offset, length) =>
      match headers rest with
      | .error error => .error error
      | .ok written =>
        .ok (toBe 4 (headerWord generation.payloadType offset length).toNat ++ written)

/-- `RedBuilder::write_into`. -/
def writeInto : Except RedError Bytes :=
  if maxRedBlocks < builder.redundant.length then .error (.tooManyBlocks maxRedBlocks)
  else
    match builder.headers builder.redundant with
    | .error error => .error error
    | .ok written =>
      .ok (written ++ (builder.primaryPayloadType &&& 0x7F) ::
        (builder.redundant.flatMap (·.data) ++ builder.primaryData))

/-- The block that a generation becomes. -/
def block (generation : RedGeneration) : RedBlock where
  payloadType := generation.payloadType &&& 0x7F
  timestampOffset := builder.primaryRtpTimestamp - generation.rtpTimestamp
  data := generation.data

/-- The blocks that are put in. -/
def packet : RedPacket where
  redundant := builder.redundant.map builder.block
  primary := ⟨builder.primaryPayloadType &&& 0x7F, 0, builder.primaryData⟩

end RedBuilder

/-! ### What is built parses -/

/-- The fields of a header as parts of a number. -/
theorem toNat_headerWord (payloadType : UInt8) {offset : UInt32} {length : ℕ}
    (hoffset : offset.toNat < 2 ^ 14) (hlength : length < 2 ^ 10) :
    (RedBuilder.headerWord payloadType offset length).toNat =
      2 ^ 31 + (payloadType &&& 0x7F).toNat * 2 ^ 24 + offset.toNat * 2 ^ 10 + length := by
  have htype : (payloadType &&& 0x7F).toNat < 2 ^ 7 := by
    rw [UInt8.toNat_and]
    exact Nat.lt_of_le_of_lt Nat.and_le_right (by decide)
  unfold RedBuilder.headerWord
  generalize payloadType &&& 0x7F = masked at htype
  have hflag : ((1 : UInt32) <<< 31).toNat = 2 ^ 31 * 1 := rfl
  have hmasked : (masked.toUInt32 <<< 24).toNat = masked.toNat * 2 ^ 24 := by
    rw [UInt32.toNat_shiftLeft, UInt8.toNat_toUInt32]
    change masked.toNat <<< 24 % 2 ^ 32 = _
    rw [Nat.shiftLeft_eq]
    exact Nat.mod_eq_of_lt (by omega)
  have hshifted : (offset <<< 10).toNat = offset.toNat * 2 ^ 10 := by
    change offset.toNat <<< 10 % 2 ^ 32 = _
    rw [Nat.shiftLeft_eq]
    exact Nat.mod_eq_of_lt (by omega)
  have hlow : (UInt32.ofNat length).toNat = length := by
    exact Nat.mod_eq_of_lt (by omega)
  have htop : 2 ^ 31 * 1 + masked.toNat * 2 ^ 24 = 2 ^ 24 * (2 ^ 7 + masked.toNat) := by ring
  have hmiddle : 2 ^ 24 * (2 ^ 7 + masked.toNat) + offset.toNat * 2 ^ 10 =
      2 ^ 10 * (2 ^ 14 * (2 ^ 7 + masked.toNat) + offset.toNat) := by ring
  rw [UInt32.toNat_or, UInt32.toNat_or, UInt32.toNat_or, hflag, hmasked, hshifted, hlow,
    ← Nat.two_pow_add_eq_or_of_lt (by omega), htop, ← Nat.two_pow_add_eq_or_of_lt (by omega),
    hmiddle, ← Nat.two_pow_add_eq_or_of_lt hlength]
  ring

/-- The timestamp offset of four octets as a number. -/
theorem toNat_timestampOffset (first second third fourth : UInt8) :
    (RedHeader.read first second third fourth).timestampOffset.toNat =
      second.toNat * 2 ^ 6 + third.toNat / 4 := by
  have hsecond := second.toNat_lt
  have hthird := third.toNat_lt
  change ((second.toUInt32 <<< 6) ||| (third.toUInt32 >>> 2)).toNat = _
  have hhigh : (second.toUInt32 <<< 6).toNat = 2 ^ 6 * second.toNat := by
    change second.toNat <<< 6 % 2 ^ 32 = _
    rw [Nat.shiftLeft_eq, Nat.mod_eq_of_lt (by omega), Nat.mul_comm]
  have hlow : (third.toUInt32 >>> 2).toNat = third.toNat / 4 := by
    exact Nat.shiftRight_eq_div_pow _ _
  rw [UInt32.toNat_or, hhigh, hlow, ← Nat.two_pow_add_eq_or_of_lt (by omega)]
  ring

/-- The length of four octets as a number. -/
theorem length_read (first second third fourth : UInt8) :
    (RedHeader.read first second third fourth).length = third.toNat % 4 * 2 ^ 8 + fourth.toNat := by
  have hfourth := fourth.toNat_lt
  change (((third.toUInt32 &&& 0x03) <<< 8) ||| fourth.toUInt32).toNat = _
  have hlow : (third.toUInt32 &&& 0x03).toNat = third.toNat % 4 := by
    exact Nat.and_two_pow_sub_one_eq_mod third.toNat 2
  have hhigh : ((third.toUInt32 &&& 0x03) <<< 8).toNat = 2 ^ 8 * (third.toNat % 4) := by
    rw [UInt32.toNat_shiftLeft, hlow]
    change (third.toNat % 4) <<< 8 % 2 ^ 32 = _
    rw [Nat.shiftLeft_eq, Nat.mod_eq_of_lt (by omega), Nat.mul_comm]
  rw [UInt32.toNat_or, hhigh, UInt8.toNat_toUInt32, ← Nat.two_pow_add_eq_or_of_lt (by omega)]
  ring

/-- The octets of a number of 32 bits. -/
theorem toBe_four (value : ℕ) :
    toBe 4 value = [UInt8.ofNat (value / 2 ^ 24), UInt8.ofNat (value / 2 ^ 16),
      UInt8.ofNat (value / 2 ^ 8), UInt8.ofNat value] := by
  simp [toBe, Nat.div_div_eq_div_mul]

theorem toNat_and_mask (byte : UInt8) : (byte &&& 0x7F).toNat = byte.toNat % 2 ^ 7 := by
  exact Nat.and_two_pow_sub_one_eq_mod byte.toNat 7

theorem and_flag_eq_zero_iff (byte : UInt8) : byte &&& 0x80 = 0 ↔ byte.toNat < 2 ^ 7 := by
  have hbound := byte.toNat_lt
  rw [← UInt8.toNat_inj]
  have hbit : byte.toNat &&& 2 ^ 7 = 0 ↔ byte.toNat / 2 ^ 7 % 2 = 0 := by
    rw [Nat.and_two_pow, Nat.testBit_eq_decide_div_mod_eq]
    simp
  change byte.toNat &&& 2 ^ 7 = 0 ↔ _
  omega

/-- The octets of a header are those of a redundant block, and hold its fields. -/
theorem read_headerWord (payloadType : UInt8) {offset : UInt32} {length : ℕ}
    (hoffset : offset.toNat < 2 ^ 14) (hlength : length < 2 ^ 10) :
    ∃ first second third fourth,
      toBe 4 (RedBuilder.headerWord payloadType offset length).toNat =
        [first, second, third, fourth] ∧
      first &&& 0x80 ≠ 0 ∧
      RedHeader.read first second third fourth = ⟨payloadType &&& 0x7F, offset, length⟩ := by
  have hword := toNat_headerWord payloadType hoffset hlength
  have htype : (payloadType &&& 0x7F).toNat < 2 ^ 7 := by
    rw [toNat_and_mask]
    exact Nat.mod_lt _ (by decide)
  generalize (RedBuilder.headerWord payloadType offset length).toNat = word at hword
  have hfirst : (UInt8.ofNat (word / 2 ^ 24)).toNat = 2 ^ 7 + (payloadType &&& 0x7F).toNat := by
    rw [UInt8.toNat_ofNat']
    omega
  have hsecond : (UInt8.ofNat (word / 2 ^ 16)).toNat = offset.toNat / 2 ^ 6 := by
    rw [UInt8.toNat_ofNat']
    omega
  have hthird : (UInt8.ofNat (word / 2 ^ 8)).toNat =
      offset.toNat % 2 ^ 6 * 4 + length / 2 ^ 8 := by
    rw [UInt8.toNat_ofNat']
    omega
  have hfourth : (UInt8.ofNat word).toNat = length % 2 ^ 8 := by
    rw [UInt8.toNat_ofNat']
    omega
  refine ⟨_, _, _, _, toBe_four word, ?_, ?_⟩
  · rw [ne_eq, and_flag_eq_zero_iff, hfirst]
    omega
  generalize UInt8.ofNat (word / 2 ^ 24) = first at hfirst
  generalize UInt8.ofNat (word / 2 ^ 16) = second at hsecond
  generalize UInt8.ofNat (word / 2 ^ 8) = third at hthird
  generalize UInt8.ofNat word = fourth at hfourth
  have hreadType : (RedHeader.read first second third fourth).payloadType =
      payloadType &&& 0x7F := by
    rw [← UInt8.toNat_inj]
    change (first &&& 0x7F).toNat = _
    rw [toNat_and_mask]
    omega
  have hreadOffset : (RedHeader.read first second third fourth).timestampOffset = offset := by
    rw [← UInt32.toNat_inj, toNat_timestampOffset, hsecond, hthird]
    omega
  have hreadLength : (RedHeader.read first second third fourth).length = length := by
    rw [length_read]
    omega
  generalize RedHeader.read first second third fourth = header at *
  obtain ⟨_, _, _⟩ := header
  cases hreadType
  cases hreadOffset
  cases hreadLength
  rfl

namespace RedBuilder

variable {builder : RedBuilder}

theorem of_validatedOffsetLength {generation : RedGeneration} {offset : UInt32} {length : ℕ}
    (hvalid : builder.validatedOffsetLength generation = .ok (offset, length)) :
    offset = builder.primaryRtpTimestamp - generation.rtpTimestamp ∧
      length = generation.data.length ∧ offset.toNat < 2 ^ 14 ∧ length < 2 ^ 10 := by
  unfold validatedOffsetLength at hvalid
  dsimp only at hvalid
  split_ifs at hvalid with hoffset hlength
  cases hvalid
  refine ⟨rfl, rfl, ?_, ?_⟩
  · have hle := UInt32.le_iff_toNat_le.mp (UInt32.not_lt.mp hoffset)
    have hmax : maxTimestampOffset.toNat = 2 ^ 14 - 1 := rfl
    omega
  · unfold maxBlockLength at hlength
    omega

/-- The headers that are read of what is written. -/
theorem readHeaders_headers {generations : List RedGeneration} {written : Bytes} {left : ℕ}
    (hleft : generations.length ≤ left) (hwritten : builder.headers generations = .ok written)
    {primary : UInt8} (hprimary : primary &&& 0x80 = 0) (rest : Bytes) :
    RedPacket.readHeaders left (written ++ primary :: rest) =
      .ok (generations.map fun generation ↦
        ⟨generation.payloadType &&& 0x7F,
          builder.primaryRtpTimestamp - generation.rtpTimestamp, generation.data.length⟩,
        primary &&& 0x7F, rest) := by
  induction generations generalizing left written with
  | nil =>
    cases hwritten
    cases left <;> simp [RedPacket.readHeaders, hprimary]
  | cons generation generations ih =>
    unfold headers at hwritten
    split at hwritten
    · cases hwritten
    next offset length hvalid =>
      split at hwritten
      · cases hwritten
      next later hlater =>
        cases hwritten
        obtain ⟨rfl, rfl, hoffset, hlength⟩ := of_validatedOffsetLength hvalid
        obtain ⟨first, second, third, fourth, hoctets, hflag, hread⟩ :=
          read_headerWord generation.payloadType hoffset hlength
        rw [hoctets]
        cases left with
        | zero => cases hleft
        | succ left =>
          have hrest := ih (Nat.le_of_succ_le_succ hleft) hlater
          change RedPacket.readHeaders (left + 1)
            (first :: second :: third :: fourth :: (later ++ primary :: rest)) = _
          rw [RedPacket.readHeaders, if_neg hflag, hrest, hread]
          rfl

/-- The blocks that are read of what is written. -/
theorem readBlocks_map (generations : List RedGeneration) (rest : Bytes) :
    RedPacket.readBlocks (generations.map fun generation ↦
        ⟨generation.payloadType &&& 0x7F,
          builder.primaryRtpTimestamp - generation.rtpTimestamp, generation.data.length⟩)
      (generations.flatMap (·.data) ++ rest) = .ok (generations.map builder.block, rest) := by
  induction generations with
  | nil => rfl
  | cons generation generations ih =>
    rw [List.map_cons, List.flatMap_cons, List.append_assoc, RedPacket.readBlocks]
    rw [if_neg (by simp), List.drop_left, List.take_left, ih]
    rfl

/-- What is built parses to the blocks put in. -/
theorem parse_writeInto {payload : Bytes} (hpayload : builder.writeInto = .ok payload) :
    RedPacket.parse payload = .ok builder.packet := by
  unfold writeInto at hpayload
  split_ifs at hpayload with hmany
  split at hpayload
  · cases hpayload
  next written hwritten =>
    cases hpayload
    have hprimary : builder.primaryPayloadType &&& 0x7F &&& 0x80 = 0 := by
      rw [and_flag_eq_zero_iff, toNat_and_mask]
      exact Nat.mod_lt _ (by decide)
    have hmasked : builder.primaryPayloadType &&& 0x7F &&& 0x7F =
        builder.primaryPayloadType &&& 0x7F := by
      rw [← UInt8.toNat_inj, toNat_and_mask, toNat_and_mask]
      exact Nat.mod_mod _ _
    unfold RedPacket.parse
    rw [readHeaders_headers (Nat.le_of_not_lt hmany) hwritten hprimary]
    dsimp only
    rw [readBlocks_map, hmasked]
    rfl

end RedBuilder

end SiphonRtp.Media
