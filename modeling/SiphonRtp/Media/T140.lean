import SiphonRtp.Machine.Runs
import SiphonRtp.Machine.Serial
import SiphonRtp.Machine.Utf8
import SiphonRtp.Media.Red

/-!
# Real-time text

`T140Reassembler` of `siphon-rtp-media/src/t140.rs`: the receiver of a text stream whose packets
carry earlier generations of text as RED redundancy. It recovers what was lost from the redundant
copies, shows one marker where they do not reach, and shows nothing twice.

`TextSender` puts generation `n` of a text into packet `n`, with the generations before it that the
redundancy covers. `shownAt` is what a packet should show after the highest generation received
before it. The receiver shows exactly that, whatever the network does to the packets, as long as
none is further than half of the sequence numbers away.
-/

set_option autoImplicit false

namespace SiphonRtp.Media

open Machine

/-! ### The receiver -/

/-- `MISSING_TEXT_MARKER`. -/
def missingTextMarker : Char := '\uFFFD'

/-- What one packet shows. -/
structure T140Output where
  text : List Char
  missingMarkers : ℕ
  recoveredFromRedundancy : ℕ
deriving DecidableEq

structure T140Reassembler where
  expectedSequence : Option UInt16
  highestTimestamp : Option UInt32
  /-- The octets of a character that the sender has split. -/
  partialChar : Bytes
deriving DecidableEq

/-- `utf8_lead_length`. -/
def utf8LeadLength (byte : UInt8) : Option ℕ :=
  if byte &&& 0x80 = 0x00 then some 1
  else if byte &&& 0xE0 = 0xC0 then some 2
  else if byte &&& 0xF0 = 0xE0 then some 3
  else if byte &&& 0xF8 = 0xF0 then some 4
  else none

/-- The loop of `push_text`: the text, and the octets of an unfinished character at the end. -/
def pushWhole (bytes : Bytes) : List Char × Bytes :=
  match _hdecode : decodeUtf8 bytes with
  | (text, _, none) => (text, [])
  | (text, rest, some .incomplete) => (text, rest.take 4)
  | (text, rest, some (.invalid length)) =>
    let later := pushWhole (rest.drop length)
    (text ++ missingTextMarker :: later.1, later.2)
termination_by bytes.length
decreasing_by
  obtain ⟨hne, hle, hfault⟩ := decodeUtf8_fault _hdecode
  have hpos := (utf8Fault_bounds hfault).1
  have hlength := List.length_pos_iff.mpr hne
  rw [List.length_drop]
  omega

/-- `push_text`, with the octets of an unfinished character before and after it. -/
def pushText (pending bytes : Bytes) : List Char × Bytes :=
  match pending with
  | [] => pushWhole bytes
  | lead :: _ =>
    match utf8LeadLength lead with
    | some needed =>
      let filled := pending ++ bytes.take (needed - pending.length)
      if filled.length < needed then ([], filled)
      else
        let completed :=
          -- one marker for all of the octets, whole characters among them included
          match decodeUtf8 (filled.take needed) with
          | (text, _, none) => text
          | (_, _, some _) => [missingTextMarker]
        let later := pushWhole (bytes.drop (needed - pending.length))
        (completed ++ later.1, later.2)
    | none =>
      let later := pushWhole bytes
      (missingTextMarker :: later.1, later.2)

/-- One block after the other. -/
def pushBlocks (pending : Bytes) : List Bytes → List Char × Bytes
  | [] => ([], pending)
  | block :: blocks =>
    let pushed := pushText pending block
    let later := pushBlocks pushed.2 blocks
    (pushed.1 ++ later.1, later.2)

/-- `timestamp_is_after`. -/
def timestampIsAfter (a b : UInt32) : Bool :=
  0 < (a - b).toNat && (a - b).toNat < 2 ^ 31

/-- The redundant blocks of a payload, and the data of the primary one. -/
def depacketize (payload : Bytes) (isRed : Bool) : Except RedError (List RedBlock × Bytes) :=
  if isRed then
    match RedPacket.parse payload with
    | .ok packet => .ok (packet.redundant, packet.primary.data)
    | .error error => .error error
  else .ok ([], payload)

namespace T140Reassembler

/-- `T140Reassembler::new`. -/
def new : T140Reassembler where
  expectedSequence := none
  highestTimestamp := none
  partialChar := []

/-- The highest timestamp with that of one more packet. -/
def raise (reassembler : T140Reassembler) (timestamp : UInt32) : T140Reassembler :=
  { reassembler with
    highestTimestamp :=
      match reassembler.highestTimestamp with
      | some previous => some (if timestampIsAfter timestamp previous then timestamp else previous)
      | none => some timestamp }

/-- The rest of `on_packet`, for a packet at the expected sequence number or ahead of it. -/
def deliver (reassembler : T140Reassembler) (sequence : UInt16) (ahead : ℕ)
    (redundant : List RedBlock) (primary : Bytes) : T140Output × T140Reassembler :=
  let recoverable := min ahead redundant.length
  let lost := 0 < ahead - recoverable
  -- a half-built character cannot be completed across lost data
  let pending := if lost then [] else reassembler.partialChar
  let recovered := (redundant.drop (redundant.length - recoverable)).map (·.data)
  let pushed := pushBlocks pending (recovered ++ [primary])
  (⟨if lost then missingTextMarker :: pushed.1 else pushed.1, if lost then 1 else 0, recoverable⟩,
    { reassembler with expectedSequence := some (sequence + 1), partialChar := pushed.2 })

/-- `T140Reassembler::on_packet`. -/
def onPacket (reassembler : T140Reassembler) (sequence : UInt16) (timestamp : UInt32)
    (payload : Bytes) (isRed : Bool) : Except RedError T140Output × T140Reassembler :=
  let reassembler := reassembler.raise timestamp
  match depacketize payload isRed with
  | .error error => (.error error, reassembler)
  | .ok (redundant, primary) =>
    match reassembler.expectedSequence with
    | none =>
      let pushed := pushText reassembler.partialChar primary
      (.ok ⟨pushed.1, 0, 0⟩,
        { reassembler with expectedSequence := some (sequence + 1), partialChar := pushed.2 })
    | some expected =>
      let ahead := serial (sequence - expected)
      -- a packet that was already covered, late or a duplicate
      if ahead < 0 then (.ok ⟨[], 0, 0⟩, reassembler)
      else
        let delivered := reassembler.deliver sequence ahead.toNat redundant primary
        (.ok delivered.1, delivered.2)

end T140Reassembler

/-! ### The sender -/

/-- A sender of text: its generations, the timestamps they are sent with, the sequence number of the
first packet, and how many earlier generations a packet carries. -/
structure TextSender where
  generations : ℕ → List Char
  timestamps : ℕ → UInt32
  payloadType : UInt8
  firstSequence : UInt16
  redundancy : ℕ

namespace TextSender

variable (sender : TextSender)

/-- The payload of packet `n`. -/
def builder (n : ℕ) : RedBuilder where
  primaryPayloadType := sender.payloadType
  primaryRtpTimestamp := sender.timestamps n
  primaryData := encodeUtf8 (sender.generations n)
  redundant := (List.range' (n - min n sender.redundancy) (min n sender.redundancy)).map fun i ↦
    ⟨sender.payloadType, sender.timestamps i, encodeUtf8 (sender.generations i)⟩

/-- Packet `n` can be built, and has a payload. -/
def Emits (n : ℕ) (payload : Bytes) : Prop := (sender.builder n).writeInto = .ok payload

/-- The sequence number of packet `n`. -/
def sequence (n : ℕ) : UInt16 := sender.firstSequence + UInt16.ofNat n

end TextSender

/-! ### What should be shown -/

/-- What packet `n` should show after the highest generation received before it: nothing if it is
not a new one, itself and the generations of a gap that the redundancy covers, and one marker
before the generations it carries where the gap is longer. -/
def shownAt (redundancy : ℕ) (highest : Option ℕ) (n : ℕ) : List (Option ℕ) :=
  match highest with
  | none => [some n]
  | some highest =>
    if n ≤ highest then []
    else if n - highest - 1 ≤ redundancy then (List.range' (highest + 1) (n - highest)).map some
    else none :: (List.range' (n - redundancy) (redundancy + 1)).map some

/-- The highest generation received after one more packet. -/
def heard (highest : Option ℕ) (n : ℕ) : ℕ := max (highest.getD n) n

/-- What the packets should show, one after the other. -/
def shownFrom (redundancy : ℕ) (highest : Option ℕ) : List ℕ → List (List (Option ℕ))
  | [] => []
  | n :: rest => shownAt redundancy highest n :: shownFrom redundancy (some (heard highest n)) rest

/-- No packet is further than half of the sequence numbers from the one that is expected. -/
def Near (highest : Option ℕ) : List ℕ → Prop
  | [] => True
  | n :: rest =>
    (∀ high ∈ highest, n ≤ high + 2 ^ 15 ∧ high < n + 2 ^ 15) ∧ Near (some (heard highest n)) rest

/-- The text of a generation, or the marker. -/
def TextSender.render (sender : TextSender) : Option ℕ → List Char
  | some n => sender.generations n
  | none => [missingTextMarker]

/-- What a packet that shows some generations and markers gives out. -/
def TextSender.output (sender : TextSender) (shown : List (Option ℕ)) : T140Output where
  text := shown.flatMap sender.render
  missingMarkers := shown.count none
  recoveredFromRedundancy := (shown.filterMap id).length - 1

/-! ### Whole characters -/

theorem pushWhole_encodeUtf8 (text : List Char) : pushWhole (encodeUtf8 text) = (text, []) := by
  unfold pushWhole
  split
  next found rest hdecode =>
    rw [decodeUtf8_encodeUtf8] at hdecode
    cases hdecode
    rfl
  next found rest hdecode =>
    rw [decodeUtf8_encodeUtf8] at hdecode
    cases hdecode
  next found rest length hdecode =>
    rw [decodeUtf8_encodeUtf8] at hdecode
    cases hdecode

theorem pushBlocks_encodeUtf8 (texts : List (List Char)) :
    pushBlocks [] (texts.map encodeUtf8) = (texts.flatten, []) := by
  induction texts with
  | nil => rfl
  | cons text texts ih =>
    rw [List.map_cons, pushBlocks, pushText, pushWhole_encodeUtf8, ih]
    rfl

/-! ### One packet -/

section Packet

variable {sender : TextSender}

theorem depacketize_payload {n : ℕ} {payload : Bytes} (hemits : sender.Emits n payload) :
    depacketize payload true =
      .ok ((sender.builder n).packet.redundant, encodeUtf8 (sender.generations n)) := by
  rw [depacketize, RedBuilder.parse_writeInto hemits]
  rfl

theorem length_redundant (sender : TextSender) (n : ℕ) :
    (sender.builder n).packet.redundant.length = min n sender.redundancy := by
  simp [RedBuilder.packet, TextSender.builder]

/-- The last redundant blocks of a packet carry the generations just before its own. -/
theorem drop_redundant {n count : ℕ} (hcount : count ≤ min n sender.redundancy) :
    ((sender.builder n).packet.redundant.drop (min n sender.redundancy - count)).map (·.data) =
      (List.range' (n - count) count).map fun i ↦ encodeUtf8 (sender.generations i) := by
  have hdrop : (List.range' (n - min n sender.redundancy) (min n sender.redundancy)).drop
      (min n sender.redundancy - count) = List.range' (n - count) count := by
    rw [List.drop_range']
    congr 1 <;> omega
  simp only [RedBuilder.packet, TextSender.builder, ← List.map_drop, hdrop, List.map_map]
  rfl

theorem output_some (sender : TextSender) (first count : ℕ) :
    sender.output ((List.range' first (count + 1)).map some) =
      ⟨(List.range' first (count + 1)).flatMap sender.generations, 0, count⟩ := by
  have htext : ((List.range' first (count + 1)).map some).flatMap sender.render =
      (List.range' first (count + 1)).flatMap sender.generations := List.flatMap_map _ _ _
  have hmarkers : ((List.range' first (count + 1)).map some).count none = 0 := by
    rw [List.count_eq_zero]
    simp
  have hlength : (((List.range' first (count + 1)).map some).filterMap id).length = count + 1 := by
    simp
  rw [TextSender.output, htext, hmarkers, hlength]
  rfl

theorem output_none_cons (sender : TextSender) (shown : List (Option ℕ)) :
    sender.output (none :: shown) =
      ⟨missingTextMarker :: (sender.output shown).text, (sender.output shown).missingMarkers + 1,
        (sender.output shown).recoveredFromRedundancy⟩ := by
  simp [TextSender.output, TextSender.render]

/-- What a receiver with nothing half-built makes of a packet ahead of what it expects. -/
theorem deliver_packet {reassembler : T140Reassembler} (hwhole : reassembler.partialChar = [])
    (sequence : UInt16) {ahead n : ℕ} (hahead : ahead ≤ n) :
    reassembler.deliver sequence ahead (sender.builder n).packet.redundant
        (encodeUtf8 (sender.generations n)) =
      (sender.output (if ahead ≤ sender.redundancy
          then (List.range' (n - ahead) (ahead + 1)).map some
          else none :: (List.range' (n - sender.redundancy) (sender.redundancy + 1)).map some),
        { reassembler with expectedSequence := some (sequence + 1), partialChar := [] }) := by
  have hlength := length_redundant sender n
  have hpushed : ∀ count, count ≤ min n sender.redundancy →
      pushBlocks [] (((sender.builder n).packet.redundant.drop
          (min n sender.redundancy - count)).map (·.data) ++
            [encodeUtf8 (sender.generations n)]) =
        ((List.range' (n - count) (count + 1)).flatMap sender.generations, []) := by
    intro count hcount
    have hconcat : List.range' (n - count) (count + 1) = List.range' (n - count) count ++ [n] := by
      rw [List.range'_concat]
      congr 2
      omega
    have htexts : (List.range' (n - count) count).map
          (fun i ↦ encodeUtf8 (sender.generations i)) ++ [encodeUtf8 (sender.generations n)] =
        ((List.range' (n - count) (count + 1)).map sender.generations).map encodeUtf8 := by
      rw [hconcat]
      simp
    rw [drop_redundant hcount, htexts, pushBlocks_encodeUtf8]
    rfl
  unfold T140Reassembler.deliver
  dsimp only
  rw [hlength, hwhole]
  split_ifs with hlost hcovered hcovered
  · omega
  · have hcount : min ahead (min n sender.redundancy) = sender.redundancy := by omega
    rw [hcount, hpushed sender.redundancy (by omega), output_none_cons, output_some]
  · have hcount : min ahead (min n sender.redundancy) = ahead := by omega
    rw [hcount, hpushed ahead (by omega), output_some]
  · omega

/-- A receiver that has heard up to a generation. -/
structure Hears (sender : TextSender) (highest : Option ℕ) (reassembler : T140Reassembler) :
    Prop where
  expected : reassembler.expectedSequence = highest.map fun high ↦ sender.sequence (high + 1)
  whole : reassembler.partialChar = []

theorem sequence_succ (sender : TextSender) (n : ℕ) :
    sender.sequence n + 1 = sender.sequence (n + 1) := by
  rw [TextSender.sequence, TextSender.sequence, UInt16.ofNat_add, UInt16.add_assoc]
  rfl

/-- The distance of a packet from the one that is expected. -/
theorem serial_sequence {high n : ℕ} (hahead : n ≤ high + 2 ^ 15) (hbehind : high < n + 2 ^ 15) :
    serial (sender.sequence n - sender.sequence (high + 1)) = (n : ℤ) - (high + 1 : ℕ) := by
  have hcast : ∀ m : ℕ, UInt16.ofNat m = UInt16.ofInt (m : ℤ) := by
    intro m
    apply UInt16.toNat_inj.mp
    have hint := toNat_ofInt16 (m : ℤ)
    rw [UInt16.toNat_ofNat']
    omega
  rw [TextSender.sequence, TextSender.sequence, hcast, hcast]
  refine serial_sub_ofInt sender.firstSequence ?_ ?_ <;> push_cast <;> omega

theorem onPacket_payload {highest : Option ℕ} {reassembler : T140Reassembler}
    (hhears : Hears sender highest reassembler) {n : ℕ} {payload : Bytes}
    (hemits : sender.Emits n payload)
    (hnear : ∀ high ∈ highest, n ≤ high + 2 ^ 15 ∧ high < n + 2 ^ 15) :
    ∃ after, reassembler.onPacket (sender.sequence n) (sender.timestamps n) payload true =
        (.ok (sender.output (shownAt sender.redundancy highest n)), after) ∧
      Hears sender (some (heard highest n)) after := by
  have hexpected : (reassembler.raise (sender.timestamps n)).expectedSequence =
      highest.map fun high ↦ sender.sequence (high + 1) := hhears.expected
  have hwhole : (reassembler.raise (sender.timestamps n)).partialChar = [] := hhears.whole
  unfold T140Reassembler.onPacket
  generalize reassembler.raise (sender.timestamps n) = raised at hexpected hwhole
  dsimp only
  rw [depacketize_payload hemits, hexpected]
  rcases highest with _ | high
  · dsimp only [Option.map_none]
    have hfirst : sender.output (shownAt sender.redundancy none n) =
        ⟨sender.generations n, 0, 0⟩ := by
      simp [TextSender.output, TextSender.render, shownAt]
    rw [hwhole, pushText, pushWhole_encodeUtf8, hfirst]
    refine ⟨_, rfl, ?_⟩
    rw [heard, Option.getD_none, max_self]
    exact ⟨congrArg some (sequence_succ sender n), rfl⟩
  obtain ⟨hahead, hbehind⟩ := hnear high rfl
  dsimp only [Option.map_some]
  rw [serial_sequence hahead hbehind, shownAt]
  by_cases hold : n ≤ high
  · rw [if_pos (by omega), if_pos hold]
    refine ⟨raised, rfl, ?_, hwhole⟩
    rw [hexpected, heard, Option.getD_some, max_eq_left hold]
  · have hdistance : ((n : ℤ) - (high + 1 : ℕ)).toNat = n - high - 1 := by omega
    have hstart : n - (n - high - 1) = high + 1 := by omega
    have hcount : n - high - 1 + 1 = n - high := by omega
    rw [if_neg (by omega), if_neg hold, hdistance, deliver_packet hwhole _ (by omega), hstart,
      hcount]
    refine ⟨_, rfl, ?_⟩
    rw [heard, Option.getD_some, max_eq_right (by omega)]
    exact ⟨congrArg some (sequence_succ sender n), rfl⟩

end Packet

/-! ### Any network -/

/-- A packet of the stream. -/
structure TextPacket where
  sequence : UInt16
  timestamp : UInt32
  payload : Bytes

/-- The receiver takes a packet. -/
def T140Reassembler.step (reassembler : T140Reassembler) (packet : TextPacket) :
    Except RedError T140Output × T140Reassembler :=
  reassembler.onPacket packet.sequence packet.timestamp packet.payload true

/-- Packet `n` with its payload. -/
def TextSender.packet (sender : TextSender) (payloads : ℕ → Bytes) (n : ℕ) : TextPacket :=
  ⟨sender.sequence n, sender.timestamps n, payloads n⟩

theorem outputs_shownFrom {sender : TextSender} {payloads : ℕ → Bytes} {delivered : List ℕ}
    (hemits : ∀ n ∈ delivered, sender.Emits n (payloads n)) {highest : Option ℕ}
    (hnear : Near highest delivered) {reassembler : T140Reassembler}
    (hhears : Hears sender highest reassembler) :
    outputs T140Reassembler.step reassembler (delivered.map (sender.packet payloads)) =
      (shownFrom sender.redundancy highest delivered).map
        fun shown ↦ .ok (sender.output shown) := by
  induction delivered generalizing highest reassembler with
  | nil => rfl
  | cons n rest ih =>
    obtain ⟨after, hpacket, hafter⟩ :=
      onPacket_payload hhears (hemits n List.mem_cons_self) hnear.1
    rw [List.map_cons, shownFrom, List.map_cons]
    change (reassembler.onPacket (sender.sequence n) (sender.timestamps n) (payloads n) true).1 ::
      outputs T140Reassembler.step
        (reassembler.onPacket (sender.sequence n) (sender.timestamps n) (payloads n) true).2 _ = _
    rw [hpacket, ih (fun m hm ↦ hemits m (List.mem_cons_of_mem _ hm)) hnear.2 hafter]

/-- The generations that are shown, in the order they are. -/
def shownGenerations (redundancy : ℕ) (highest : Option ℕ) (delivered : List ℕ) : List ℕ :=
  (shownFrom redundancy highest delivered).flatten.filterMap id

/-- A packet shows the generations that it carries and that were not received before. -/
theorem mem_shownAt_iff {redundancy high n i : ℕ} :
    some i ∈ shownAt redundancy (some high) n ↔ high < i ∧ i ≤ n ∧ n ≤ i + redundancy := by
  unfold shownAt
  dsimp only
  split_ifs with hold hcovered
  · simp
    omega
  · simp [List.mem_range'_1]
    omega
  · simp [List.mem_range'_1]
    omega

theorem pairwise_shownAt (redundancy : ℕ) (highest : Option ℕ) (n : ℕ) :
    ((shownAt redundancy highest n).filterMap id).Pairwise (· < ·) := by
  have hrange : ∀ first count : ℕ,
      (((List.range' first count).map some).filterMap id).Pairwise (· < ·) := by
    intro first count
    simpa using List.pairwise_lt_range'
  rcases highest with _ | high
  · exact List.pairwise_singleton _ _
  · unfold shownAt
    dsimp only
    split_ifs
    · exact List.Pairwise.nil
    · exact hrange _ _
    · exact hrange _ _

theorem shownGenerations_cons (redundancy : ℕ) (highest : Option ℕ) (n : ℕ) (rest : List ℕ) :
    shownGenerations redundancy highest (n :: rest) =
      (shownAt redundancy highest n).filterMap id ++
        shownGenerations redundancy (some (heard highest n)) rest := by
  simp [shownGenerations, shownFrom]

theorem lt_of_mem_shownGenerations {redundancy high i : ℕ} {delivered : List ℕ}
    (hmem : i ∈ shownGenerations redundancy (some high) delivered) : high < i := by
  induction delivered generalizing high with
  | nil => exact absurd hmem List.not_mem_nil
  | cons n rest ih =>
    rw [shownGenerations_cons, List.mem_append] at hmem
    rcases hmem with hnow | hlater
    · have hshown : some i ∈ shownAt redundancy (some high) n := by simpa using hnow
      exact (mem_shownAt_iff.mp hshown).1
    · have hheard : high ≤ heard (some high) n := le_max_left _ _
      have hlt := ih hlater
      omega

theorem le_heard_of_mem_shownAt {redundancy : ℕ} {highest : Option ℕ} {n i : ℕ}
    (hmem : some i ∈ shownAt redundancy highest n) : i ≤ heard highest n := by
  have hle : n ≤ heard highest n := le_max_right _ _
  rcases highest with _ | high
  · have heq : i = n := by simpa [shownAt] using hmem
    omega
  · have hshown := (mem_shownAt_iff.mp hmem).2.1
    omega

/-- Nothing is shown twice, and nothing is shown after a later generation. -/
theorem pairwise_shownGenerations (redundancy : ℕ) (highest : Option ℕ) (delivered : List ℕ) :
    (shownGenerations redundancy highest delivered).Pairwise (· < ·) := by
  induction delivered generalizing highest with
  | nil => exact List.Pairwise.nil
  | cons n rest ih =>
    rw [shownGenerations_cons, List.pairwise_append]
    refine ⟨pairwise_shownAt redundancy highest n, ih _, ?_⟩
    intro i hi j hj
    have hshown : some i ∈ shownAt redundancy highest n := by simpa using hi
    have hle := le_heard_of_mem_shownAt hshown
    have hlt := lt_of_mem_shownGenerations hj
    omega

/-- Every RED payload that is built parses back to the blocks put in, and real-time text survives
loss up to its redundancy: for any packets delivered, in any order and any number of times, the
receiver gives out what `shownFrom` says, the generations from the first received one on in order
and at most once, with a gap filled where the redundancy covers it and one marker where it does
not. -/
theorem text_survives_loss :
    (∀ (builder : RedBuilder) (payload : Bytes), builder.writeInto = .ok payload →
      RedPacket.parse payload = .ok builder.packet) ∧
    ∀ (sender : TextSender) (payloads : ℕ → Bytes) (delivered : List ℕ),
      (∀ n ∈ delivered, sender.Emits n (payloads n)) → Near none delivered →
        outputs T140Reassembler.step .new (delivered.map (sender.packet payloads)) =
          (shownFrom sender.redundancy none delivered).map (fun shown ↦ .ok (sender.output shown)) ∧
        (shownGenerations sender.redundancy none delivered).Pairwise (· < ·) ∧
        (shownGenerations sender.redundancy none delivered).head? = delivered.head? := by
  refine ⟨fun builder payload hwritten ↦ RedBuilder.parse_writeInto hwritten, ?_⟩
  intro sender payloads delivered hemits hnear
  refine ⟨outputs_shownFrom hemits hnear ⟨rfl, rfl⟩, pairwise_shownGenerations _ _ _, ?_⟩
  cases delivered with
  | nil => rfl
  | cons n rest => rfl

/-- One letter a generation, and one earlier generation in each packet. -/
def letterSender : TextSender where
  generations n := [Char.ofNat (65 + n)]
  timestamps n := UInt32.ofNat (300 * n)
  payloadType := 98
  firstSequence := 0xFFFE
  redundancy := 1

/-- The payload of one letter with the letter before it. -/
def letterPayload (n : ℕ) : Bytes :=
  match letterSender.builder n |>.writeInto with
  | .ok payload => payload
  | .error _ => []

theorem letters_survive_loss :
    outputs T140Reassembler.step .new
        ([0, 2, 1, 2, 5].map (letterSender.packet letterPayload)) =
      [.ok ⟨['A'], 0, 0⟩, .ok ⟨['B', 'C'], 0, 1⟩, .ok ⟨[], 0, 0⟩, .ok ⟨[], 0, 0⟩,
        .ok ⟨[missingTextMarker, 'E', 'F'], 1, 1⟩] := by
  decide +kernel

end SiphonRtp.Media
