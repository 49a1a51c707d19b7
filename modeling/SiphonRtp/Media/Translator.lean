import SiphonRtp.Machine.Runs
import SiphonRtp.Media.Rtp

/-!
# The per-receiver translator

`Translator` of `siphon-rtp-media/src/translator.rs`: one receiver's egress stream, with a fixed
SSRC and numbers that continue across talker changes. The first packet of a run is rebased onto the
number after the last one sent, and every other packet of the run is mapped by the offset that
fixes. A late packet of the source before is dropped.

An inbound packet is forwarded (`translate_forwarded`) or leaves no trace (`translate_kept`). While
each run arrives in order, the last packet sent is the one the next run is rebased onto: for the
numbers (`LastNumber`) and for the timestamps (`LastTime`), each by its own order.
-/

set_option autoImplicit false

namespace SiphonRtp.Media

open Machine

/-! ### The translator -/

/-- The mapping of the source that is being forwarded. -/
structure Source where
  ssrc : UInt32
  firstSequence : UInt16
  firstTimestamp : UInt32
  baseSequence : UInt16
  baseTimestamp : UInt32
  highestSequence : UInt16
deriving DecidableEq

/-- The difference, read as an `i16`, is positive. -/
def ahead16 (a b : UInt16) : Bool := decide (0 < (a - b).toNat ∧ (a - b).toNat < 2 ^ 15)

/-- The difference, read as an `i32`, is positive. -/
def ahead32 (a b : UInt32) : Bool := decide (0 < (a - b).toNat ∧ (a - b).toNat < 2 ^ 31)

structure Translator where
  egressSsrc : UInt32
  initialSequence : UInt16
  initialTimestamp : UInt32
  source : Option Source
  /-- The last retired source and the highest number seen from it. -/
  previous : Option (UInt32 × UInt16)
  sentAny : Bool
  lastSequence : UInt16
  lastTimestamp : UInt32
  lastClock : UInt32
  packetsSent : UInt32
  octetsSent : UInt32
deriving DecidableEq

/-- `Forwarded`, with the rewritten packet. -/
inductive Forwarded
  | packet (bytes : Bytes) (rebased : Bool)
  | droppedStale
deriving DecidableEq

namespace Translator

def new (egressSsrc : UInt32) (initialSequence : UInt16) (initialTimestamp : UInt32) :
    Translator where
  egressSsrc
  initialSequence
  initialTimestamp
  source := none
  previous := none
  sentAny := false
  lastSequence := initialSequence
  lastTimestamp := initialTimestamp
  lastClock := 0
  packetsSent := 0
  octetsSent := 0

/-- The source is retired: its SSRC and its highest number are kept for the stale check. -/
def retireSource (translator : Translator) : Option (UInt32 × UInt16) :=
  match translator.source with
  | none => translator.previous
  | some source => some (source.ssrc, source.highestSequence)

def switchSource (translator : Translator) : Translator :=
  { translator with source := none, previous := translator.retireSource }

/-- The mapping of a packet of the source that is being forwarded. -/
def mapped (translator : Translator) (packet : RtpPacket) : Option (UInt16 × UInt32) :=
  match translator.source with
  | none => none
  | some source =>
    if source.ssrc = packet.ssrc then
      some (source.baseSequence + (packet.sequence - source.firstSequence),
        source.baseTimestamp + (packet.timestamp - source.firstTimestamp))
    else none

/-- A late packet of the source before. -/
def stale (translator : Translator) (packet : RtpPacket) : Bool :=
  match translator.previous with
  | none => false
  | some (ssrc, highest) => decide (ssrc = packet.ssrc) && !ahead16 packet.sequence highest

/-- Where the first packet of a run goes. -/
def rebasedTo (translator : Translator) (clock : UInt32) : UInt16 × UInt32 :=
  if translator.sentAny then
    let elapsed := clock - translator.lastClock
    -- a clock that ran backwards still advances the timestamp by one tick
    let elapsed := if elapsed = 0 ∨ 2 ^ 31 ≤ elapsed.toNat then 1 else elapsed
    (translator.lastSequence + 1, translator.lastTimestamp + elapsed)
  else (translator.initialSequence, translator.initialTimestamp)

/-- The rewritten packet: payload and padding are carried over. -/
def rewrite (inbound : Bytes) (packet : RtpPacket) (header : RtpHeader) (capacity : ℕ) :
    Except RtpError Bytes :=
  let padding := if octet inbound 0 &&& 0x20 ≠ 0 then
    inbound.length - packet.payload.length - headerLen inbound else 0
  let total := fixedHeaderLen + packet.payload.length + padding
  if capacity < total then .error (.outputTooSmall total capacity)
  else
    match writePacket header packet.payload capacity with
    | .error error => .error error
    | .ok bytes =>
      if 0 < padding then
        .ok ((octet bytes 0 ||| 0x20) :: (bytes.drop 1 ++ inbound.drop (inbound.length - padding)))
      else .ok bytes

/-- The source after a packet that was written. -/
def sourceAfter (translator : Translator) (packet : RtpPacket) (rebase : Bool)
    (sequence : UInt16) (timestamp : UInt32) : Option Source :=
  if rebase then
    some {
      ssrc := packet.ssrc
      firstSequence := packet.sequence
      firstTimestamp := packet.timestamp
      baseSequence := sequence
      baseTimestamp := timestamp
      highestSequence := packet.sequence }
  else translator.source.map fun source ↦
    if ahead16 packet.sequence source.highestSequence then
      { source with highestSequence := packet.sequence } else source

/-- The state is committed only after the packet was written. -/
def commit (translator : Translator) (packet : RtpPacket) (rebase : Bool) (sequence : UInt16)
    (timestamp clock : UInt32) : Translator :=
  { translator with
    source := translator.sourceAfter packet rebase sequence timestamp
    previous := if rebase then translator.retireSource else translator.previous
    lastSequence := if !translator.sentAny || ahead16 sequence translator.lastSequence then sequence
      else translator.lastSequence
    lastTimestamp := if !translator.sentAny || ahead32 timestamp translator.lastTimestamp then
      timestamp else translator.lastTimestamp
    lastClock := clock
    sentAny := true
    packetsSent := translator.packetsSent + 1
    octetsSent := translator.octetsSent + UInt32.ofNat packet.payload.length }

/-- The header of the rewritten packet. -/
def egressHeader (translator : Translator) (packet : RtpPacket) (payloadType : UInt8)
    (rebase : Bool) (sequence : UInt16) (timestamp : UInt32) : RtpHeader where
  marker := rebase || packet.marker
  payloadType
  sequence
  timestamp
  ssrc := translator.egressSsrc

/-- `Translator::translate` into a buffer of `capacity` octets. -/
def translate (translator : Translator) (inbound : Bytes) (payloadType : UInt8) (clock : UInt32)
    (capacity : ℕ) : Except RtpError Forwarded × Translator :=
  match RtpPacket.parse inbound with
  | .error error => (.error error, translator)
  | .ok packet =>
    let mapping := translator.mapped packet
    let rebase := mapping.isNone
    if rebase && translator.stale packet then (.ok .droppedStale, translator)
    else
      let egress := mapping.getD (translator.rebasedTo clock)
      let header := translator.egressHeader packet payloadType rebase egress.1 egress.2
      match rewrite inbound packet header capacity with
      | .error error => (.error error, translator)
      | .ok bytes =>
        (.ok (.packet bytes rebase), translator.commit packet rebase egress.1 egress.2 clock)

/-! ### One packet -/

/-- The octets of a rewritten packet. -/
theorem eq_of_rewrite {inbound bytes : Bytes} {packet : RtpPacket} {header : RtpHeader}
    {capacity padding : ℕ}
    (hpadding : (if octet inbound 0 &&& 0x20 ≠ 0 then
      inbound.length - packet.payload.length - headerLen inbound else 0) = padding)
    (hrewrite : rewrite inbound packet header capacity = .ok bytes) :
    bytes = if 0 < padding then
        0xA0 :: (header.octets ++ (packet.payload ++ inbound.drop (inbound.length - padding)))
      else 0x80 :: (header.octets ++ packet.payload) := by
  unfold rewrite at hrewrite
  rw [hpadding, writePacket_eq] at hrewrite
  by_cases hshort : capacity < fixedHeaderLen + packet.payload.length + padding
  · rw [if_pos hshort] at hrewrite
    cases hrewrite
  · rw [if_neg hshort, if_neg (by omega)] at hrewrite
    dsimp only at hrewrite
    split at hrewrite
    · rename_i hsome
      rw [if_pos hsome, ← Except.ok.inj hrewrite, List.drop_one, List.tail_cons, List.append_assoc]
      exact congrArg (· :: _) (by decide : (0x80 : UInt8) ||| 0x20 = 0xA0)
    · rename_i hnone
      rw [if_neg hnone]
      exact (Except.ok.inj hrewrite).symm

/-- A rewritten packet reads as the payload and the padding of the inbound one. -/
theorem readsAs_of_rewrite {inbound bytes : Bytes} {packet : RtpPacket} {header : RtpHeader}
    {capacity : ℕ} (hparse : RtpPacket.parse inbound = .ok packet)
    (hrewrite : rewrite inbound packet header capacity = .ok bytes) :
    ReadsAs bytes header packet.payload (paddingOf inbound) := by
  have hread := RtpPacket.readFrom_of_parse hparse
  have hlength := hread.length
  by_cases hpadded : octet inbound 0 &&& 0x20 ≠ 0
  · obtain ⟨hsome, hcounts⟩ := hread.padded hpadded
    have hdrop : paddingOf inbound =
        inbound.drop (inbound.length - (paddingOf inbound).length) := by
      rw [← hcounts]
      exact if_pos hpadded
    have hlast : octet (paddingOf inbound) ((paddingOf inbound).length - 1) =
        octet inbound (inbound.length - 1) := by
      rw [octet, List.getD_eq_getElem?_getD]
      nth_rewrite 1 [hdrop]
      rw [List.getElem?_drop]
      congr 2
      omega
    have hbytes := eq_of_rewrite (by rw [if_pos hpadded]; omega :
      _ = (paddingOf inbound).length) hrewrite
    rw [if_pos hsome, ← hdrop] at hbytes
    rw [hbytes]
    exact readsAs_padded header packet.payload hsome (by rw [hlast, hcounts])
  · rw [eq_of_rewrite (if_neg hpadded) hrewrite, paddingOf, if_neg hpadded]
    exact readsAs_unpadded header packet.payload

section Packet

variable {translator : Translator} {inbound : Bytes} {payloadType : UInt8} {clock : UInt32}
  {capacity : ℕ}

/-- A forwarded packet: how it was mapped, what was written and what is remembered. -/
theorem translate_forwarded {bytes : Bytes} {rebased : Bool}
    (hforwarded : (translator.translate inbound payloadType clock capacity).1 =
      .ok (.packet bytes rebased)) :
    ∃ packet, RtpPacket.parse inbound = .ok packet ∧
      rebased = (translator.mapped packet).isNone ∧
      let egress := (translator.mapped packet).getD (translator.rebasedTo clock)
      ReadsAs bytes (translator.egressHeader packet payloadType rebased egress.1 egress.2)
        packet.payload (paddingOf inbound) ∧
      (translator.translate inbound payloadType clock capacity).2 =
        translator.commit packet rebased egress.1 egress.2 clock := by
  unfold translate at hforwarded ⊢
  split at hforwarded
  · cases hforwarded
  rename_i packet hparse
  dsimp only at hforwarded
  split at hforwarded
  · cases hforwarded
  rename_i hfresh
  split at hforwarded
  · cases hforwarded
  rename_i written hrewrite
  cases hforwarded
  refine ⟨packet, hparse, rfl, readsAs_of_rewrite hparse hrewrite, ?_⟩
  simp only [if_neg hfresh, hrewrite]

/-- A packet is mapped by the offset of the source being forwarded. -/
theorem source_of_mapped {packet : RtpPacket} {egress : UInt16 × UInt32}
    (hmapped : translator.mapped packet = some egress) :
    ∃ source, translator.source = some source ∧
      (source.baseSequence + (packet.sequence - source.firstSequence),
        source.baseTimestamp + (packet.timestamp - source.firstTimestamp)) = egress := by
  unfold mapped at hmapped
  split at hmapped
  · cases hmapped
  · split at hmapped
    · exact ⟨_, ‹_›, Option.some.inj hmapped⟩
    · cases hmapped

/-- A packet that is not forwarded leaves no trace. -/
theorem translate_kept (hkept : ∀ bytes rebased,
      (translator.translate inbound payloadType clock capacity).1 ≠ .ok (.packet bytes rebased)) :
    (translator.translate inbound payloadType clock capacity).2 = translator := by
  unfold translate at hkept ⊢
  dsimp only at hkept ⊢
  repeat' split
  all_goals simp_all

end Packet

/-- The numbers in the octets of a packet that was written. -/
theorem numbers_of_readsAs {bytes payload padding : Bytes} {header : RtpHeader}
    (hreads : ReadsAs bytes header payload padding) :
    readU16 bytes 2 = header.sequence ∧ readU32 bytes 4 = header.timestamp := by
  obtain ⟨out, hparse, hwritten, -⟩ := hreads
  have hread := RtpPacket.readFrom_of_parse hparse
  exact ⟨hread.sequence.symm.trans hwritten.sequence,
    hread.timestamp.symm.trans hwritten.timestamp⟩

/-! ### Runs -/

inductive TranslatorCall
  | translate (inbound : Bytes) (payloadType : UInt8) (clock : UInt32) (capacity : ℕ)
  | switchSource

def step (translator : Translator) :
    TranslatorCall → Option (Except RtpError Forwarded) × Translator
  | .translate inbound payloadType clock capacity =>
    (some (translator.translate inbound payloadType clock capacity).1,
      (translator.translate inbound payloadType clock capacity).2)
  | .switchSource => (none, translator.switchSource)

/-- The numbers of a packet as it came and as it was sent, and whether it starts a run. -/
structure Sent where
  inSequence : UInt16
  inTimestamp : UInt32
  outSequence : UInt16
  outTimestamp : UInt32
  rebased : Bool
deriving DecidableEq

def sentOf : TranslatorCall × Option (Except RtpError Forwarded) → Option Sent
  | (.translate inbound _ _ _, some (.ok (.packet bytes rebased))) =>
    some ⟨readU16 inbound 2, readU32 inbound 4, readU16 bytes 2, readU32 bytes 4, rebased⟩
  | _ => none

def sent (translator : Translator) (calls : List TranslatorCall) : List Sent :=
  (trace step translator calls).filterMap sentOf

theorem sent_cons (translator : Translator) (call : TranslatorCall) (rest : List TranslatorCall) :
    sent translator (call :: rest) =
      (sentOf (call, (translator.step call).1)).toList ++ sent (translator.step call).2 rest := by
  rw [sent, trace_cons, List.filterMap_cons]
  cases sentOf (call, (translator.step call).1) <;> rfl

/-- Within a run the later packet is ahead. -/
def NumbersInOrder (earlier later : Sent) : Prop :=
  later.rebased = false → ahead16 later.inSequence earlier.inSequence = true

instance : DecidableRel NumbersInOrder := fun _ later ↦
  inferInstanceAs (Decidable (later.rebased = false → _))

/-- Within a run the timestamp of the later packet does not go back. -/
def TimesInOrder (earlier later : Sent) : Prop :=
  later.rebased = false → (later.inTimestamp - earlier.inTimestamp).toNat < 2 ^ 31

instance : DecidableRel TimesInOrder := fun _ later ↦
  inferInstanceAs (Decidable (later.rebased = false → _))

/-- The numbers go on by the inbound differences within a run and by one at a change of runs. -/
def NumbersContinue (earlier later : Sent) : Prop :=
  if later.rebased then later.outSequence = earlier.outSequence + 1
  else later.outSequence - earlier.outSequence = later.inSequence - earlier.inSequence

/-- The timestamps go on by the inbound differences within a run, and strictly advance at a change
of runs. -/
def TimesContinue (earlier later : Sent) : Prop :=
  if later.rebased then ahead32 later.outTimestamp earlier.outTimestamp = true
  else later.outTimestamp - earlier.outTimestamp = later.inTimestamp - earlier.inTimestamp

/-- A packet is sent with the numbers that the mapping of its source gives it. -/
def Maps (source : Source) (packet : Sent) : Prop :=
  packet.outSequence = source.baseSequence + (packet.inSequence - source.firstSequence) ∧
    packet.outTimestamp = source.baseTimestamp + (packet.inTimestamp - source.firstTimestamp)

theorem ahead16_succ (sequence : UInt16) : ahead16 (sequence + 1) sequence = true := by
  have hone : sequence + 1 - sequence = 1 := by grind
  simp [ahead16, hone]

/-- A rebase puts the timestamp ahead of the last one. -/
theorem ahead32_rebasedTo {translator : Translator} (hsent : translator.sentAny = true)
    (clock : UInt32) :
    (translator.rebasedTo clock).1 = translator.lastSequence + 1 ∧
      ahead32 (translator.rebasedTo clock).2 translator.lastTimestamp = true := by
  have hahead {elapsed : UInt32} (hpos : 0 < elapsed.toNat) (hlt : elapsed.toNat < 2 ^ 31) :
      ahead32 (translator.lastTimestamp + elapsed) translator.lastTimestamp = true := by
    have hback : translator.lastTimestamp + elapsed - translator.lastTimestamp = elapsed := by grind
    simp only [ahead32, hback, hpos, hlt, and_self, decide_true]
  unfold rebasedTo
  rw [if_pos hsent]
  refine ⟨rfl, ?_⟩
  dsimp only
  split
  · exact hahead (by decide) (by decide)
  · rename_i hforward
    push Not at hforward
    refine hahead (Nat.pos_of_ne_zero fun hzero ↦ hforward.1 (UInt32.toNat_inj.mp hzero)) hforward.2

/-- What forwarding a packet does: it is rebased or mapped, and remembered. -/
structure Forwards (translator next : Translator) (packet : Sent) : Prop where
  sentAny : next.sentAny = true
  lastSequence : next.lastSequence =
    if !translator.sentAny || ahead16 packet.outSequence translator.lastSequence then
      packet.outSequence else translator.lastSequence
  lastTimestamp : next.lastTimestamp =
    if !translator.sentAny || ahead32 packet.outTimestamp translator.lastTimestamp then
      packet.outTimestamp else translator.lastTimestamp
  source : ∀ source ∈ next.source, Maps source packet
  rebased : packet.rebased = true → ∃ clock,
    (packet.outSequence, packet.outTimestamp) = translator.rebasedTo clock
  mapped : packet.rebased = false → ∃ source ∈ translator.source, Maps source packet

theorem forwards_commit {translator : Translator} {inbound : RtpPacket} {clock : UInt32}
    {packet : Sent} (hsequence : packet.inSequence = inbound.sequence)
    (htimestamp : packet.inTimestamp = inbound.timestamp)
    (hrebased : packet.rebased = (translator.mapped inbound).isNone)
    (hout : (packet.outSequence, packet.outTimestamp) =
      (translator.mapped inbound).getD (translator.rebasedTo clock)) :
    Forwards translator (translator.commit inbound packet.rebased packet.outSequence
      packet.outTimestamp clock) packet := by
  rcases hmapped : translator.mapped inbound with _ | egress
  · rw [hmapped] at hrebased hout
    refine ⟨rfl, rfl, rfl, ?_, fun _ ↦ ⟨clock, hout⟩, fun h ↦ absurd (h.symm.trans hrebased) nofun⟩
    simp only [commit, sourceAfter, hrebased, Option.isNone_none, if_true, Option.mem_def,
      Option.some.injEq]
    rintro source rfl
    simp [Maps, hsequence, htimestamp]
  · rw [hmapped] at hrebased hout
    obtain ⟨source, hsource, hegress⟩ := source_of_mapped hmapped
    have hmaps : Maps source packet := by
      rw [Maps, hsequence, htimestamp]
      exact Prod.mk.inj (hout.trans hegress.symm)
    refine ⟨rfl, rfl, rfl, ?_, fun h ↦ absurd (h.symm.trans hrebased) nofun,
      fun _ ↦ ⟨source, hsource, hmaps⟩⟩
    simp only [commit, sourceAfter, hrebased, hsource, Option.isNone_some, Bool.false_eq_true,
      if_false, Option.map_some, Option.mem_def, Option.some.injEq]
    rintro kept rfl
    split
    · exact hmaps
    · exact hmaps

theorem forwards_of_sent {translator : Translator} {call : TranslatorCall} {packet : Sent}
    (hsent : sentOf (call, (translator.step call).1) = some packet) :
    Forwards translator (translator.step call).2 packet := by
  cases call with
  | switchSource => cases hsent
  | translate inbound payloadType clock capacity =>
    rcases hresult : (translator.translate inbound payloadType clock capacity).1 with
      error | ⟨bytes, rebased⟩ | _
    · simp [step, hresult, sentOf] at hsent
    · obtain ⟨parsed, hparse, hrebased, hreads, hnext⟩ := translate_forwarded hresult
      have hread := RtpPacket.readFrom_of_parse hparse
      obtain rfl : _ = packet := by simpa [step, hresult, sentOf] using hsent
      obtain ⟨hsequence, htimestamp⟩ := numbers_of_readsAs hreads
      have hout : (readU16 bytes 2, readU32 bytes 4) =
          (translator.mapped parsed).getD (translator.rebasedTo clock) :=
        Prod.ext hsequence htimestamp
      rw [step, hnext, ← hout]
      exact @forwards_commit translator parsed clock
        ⟨readU16 inbound 2, readU32 inbound 4, readU16 bytes 2, readU32 bytes 4, rebased⟩
        hread.sequence.symm hread.timestamp.symm hrebased hout
    · simp [step, hresult, sentOf] at hsent

/-- A call that sends nothing leaves the translator alone or takes its source away. -/
theorem step_of_unsent {translator : Translator} {call : TranslatorCall}
    (hunsent : sentOf (call, (translator.step call).1) = none) :
    (translator.step call).2 = translator ∨
      (translator.step call).2 = translator.switchSource := by
  cases call with
  | switchSource => exact .inr rfl
  | translate inbound payloadType clock capacity =>
    refine .inl (translate_kept fun bytes rebased hresult ↦ ?_)
    simp [step, hresult, sentOf] at hunsent

/-! ### From one packet to the next -/

/-- What a translator remembers of the last packet carries a relation from each packet sent to the
next, while the packets come in some order. -/
structure Carries (Last : Translator → Sent → Prop) (Order Goes : Sent → Sent → Prop) : Prop where
  start : ∀ {translator next first}, translator.sentAny = false →
    Forwards translator next first → Last next first
  next : ∀ {translator next last later}, Last translator last → Order last later →
    Forwards translator next later → Goes last later ∧ Last next later
  switchSource : ∀ {translator last}, Last translator last → Last translator.switchSource last

section Carries

variable {Last : Translator → Sent → Prop} {Order Goes : Sent → Sent → Prop}

theorem Carries.chain_of_last (hcarries : Carries Last Order Goes) {translator : Translator}
    {last : Sent} (hlast : Last translator last) {calls : List TranslatorCall}
    (horder : (last :: sent translator calls).IsChain Order) :
    (last :: sent translator calls).IsChain Goes := by
  induction calls generalizing translator last with
  | nil => exact .singleton last
  | cons call rest ih =>
    rcases hsent : sentOf (call, (translator.step call).1) with _ | later
    · rw [sent_cons, hsent] at horder ⊢
      rcases step_of_unsent hsent with hsame | hswitched
      · exact ih (by rwa [hsame]) horder
      · exact ih (by rw [hswitched]; exact hcarries.switchSource hlast) horder
    · rw [sent_cons, hsent, Option.toList_some, List.singleton_append,
        List.isChain_cons_cons] at horder ⊢
      obtain ⟨hgoes, hnext⟩ := hcarries.next hlast horder.1 (forwards_of_sent hsent)
      exact ⟨hgoes, ih hnext horder.2⟩

/-- From a translator that has sent nothing. -/
theorem Carries.chain (hcarries : Carries Last Order Goes) {translator : Translator}
    (hunsent : translator.sentAny = false) {calls : List TranslatorCall}
    (horder : (sent translator calls).IsChain Order) :
    (sent translator calls).IsChain Goes := by
  induction calls generalizing translator with
  | nil => exact .nil
  | cons call rest ih =>
    rcases hsent : sentOf (call, (translator.step call).1) with _ | first
    · rw [sent_cons, hsent] at horder ⊢
      refine ih ?_ horder
      rcases step_of_unsent hsent with hsame | hswitched
      · rw [hsame, hunsent]
      · rw [hswitched, Translator.switchSource, hunsent]
    · rw [sent_cons, hsent] at horder ⊢
      exact hcarries.chain_of_last (hcarries.start hunsent (forwards_of_sent hsent)) horder

end Carries

/-- The packet has the highest number sent, by the mapping of its run. -/
structure LastNumber (translator : Translator) (last : Sent) : Prop where
  sentAny : translator.sentAny = true
  sequence : translator.lastSequence = last.outSequence
  source : ∀ source ∈ translator.source, Maps source last

theorem carries_numbers : Carries LastNumber NumbersInOrder NumbersContinue where
  start hunsent hforwards :=
    ⟨hforwards.sentAny, by rw [hforwards.lastSequence, hunsent]; rfl, hforwards.source⟩
  next {translator next last later} hlast horder hforwards := by
    have hnext (hahead : ahead16 later.outSequence last.outSequence = true) :
        LastNumber next later :=
      ⟨hforwards.sentAny, by simp [hforwards.lastSequence, hlast.sequence, hahead],
        hforwards.source⟩
    cases hrebased : later.rebased with
    | true =>
      obtain ⟨clock, hout⟩ := hforwards.rebased hrebased
      have hsucc : later.outSequence = last.outSequence + 1 := by
        rw [← hlast.sequence, ← (ahead32_rebasedTo hlast.sentAny clock).1]
        exact congrArg Prod.fst hout
      refine ⟨?_, hnext (hsucc ▸ ahead16_succ _)⟩
      rwa [NumbersContinue, if_pos hrebased]
    | false =>
      obtain ⟨source, hsource, hmaps⟩ := hforwards.mapped hrebased
      have hstep : later.outSequence - last.outSequence = later.inSequence - last.inSequence := by
        rw [hmaps.1, (hlast.source source hsource).1]
        grind
      refine ⟨?_, hnext ?_⟩
      · rwa [NumbersContinue, if_neg (by simp [hrebased])]
      · rw [ahead16, hstep]
        exact horder hrebased
  switchSource hlast := ⟨hlast.sentAny, hlast.sequence, nofun⟩

/-- The packet has the latest timestamp sent, by the mapping of its run. -/
structure LastTime (translator : Translator) (last : Sent) : Prop where
  sentAny : translator.sentAny = true
  timestamp : translator.lastTimestamp = last.outTimestamp
  source : ∀ source ∈ translator.source, Maps source last

theorem carries_times : Carries LastTime TimesInOrder TimesContinue where
  start hunsent hforwards :=
    ⟨hforwards.sentAny, by rw [hforwards.lastTimestamp, hunsent]; rfl, hforwards.source⟩
  next {translator next last later} hlast horder hforwards := by
    cases hrebased : later.rebased with
    | true =>
      obtain ⟨clock, hout⟩ := hforwards.rebased hrebased
      have hahead : ahead32 later.outTimestamp last.outTimestamp = true := by
        rw [← hlast.timestamp, show later.outTimestamp = _ from congrArg Prod.snd hout]
        exact (ahead32_rebasedTo hlast.sentAny clock).2
      refine ⟨?_, hforwards.sentAny, ?_, hforwards.source⟩
      · rwa [TimesContinue, if_pos hrebased]
      · simp [hforwards.lastTimestamp, hlast.timestamp, hahead]
    | false =>
      obtain ⟨source, hsource, hmaps⟩ := hforwards.mapped hrebased
      have hstep : later.outTimestamp - last.outTimestamp =
          later.inTimestamp - last.inTimestamp := by
        rw [hmaps.2, (hlast.source source hsource).2]
        grind
      refine ⟨?_, hforwards.sentAny, ?_, hforwards.source⟩
      · rwa [TimesContinue, if_neg (by simp [hrebased])]
      · -- an equal timestamp is not ahead, and is the last one all the same
        rw [hforwards.lastTimestamp, hlast.sentAny, hlast.timestamp]
        split
        · rfl
        · rename_i hbehind
          have hforward := horder hrebased
          rw [← hstep] at hforward
          have hzero : (later.outTimestamp - last.outTimestamp).toNat = 0 := by
            simp only [ahead32, Bool.not_true, Bool.false_or, decide_eq_true_eq] at hbehind
            omega
          have hsame : later.outTimestamp - last.outTimestamp = 0 := UInt32.toNat_inj.mp hzero
          grind
  switchSource hlast := ⟨hlast.sentAny, hlast.timestamp, nofun⟩

/-! ### Content and continuity -/

/-- Whether a call was a packet that erred or was dropped as stale. -/
def refused : Option (Except RtpError Forwarded) → Bool
  | some (.error _) => true
  | some (.ok .droppedStale) => true
  | _ => false

theorem step_of_refused {translator : Translator} {call : TranslatorCall}
    (hrefused : refused (translator.step call).1 = true) :
    (translator.step call).2 = translator := by
  cases call with
  | switchSource => cases hrefused
  | translate inbound payloadType clock capacity =>
    refine translate_kept fun bytes rebased hresult ↦ ?_
    simp [step, hresult, refused] at hrefused

/-- A plain packet without payload. -/
def emptyPacket (ssrc : UInt32) (sequence : UInt16) (timestamp : UInt32) : Bytes :=
  0x80 :: (RtpHeader.mk false 96 sequence timestamp ssrc).octets

/-- One talker and then another. -/
def twoTalkers : List TranslatorCall :=
  [.translate (emptyPacket 1 100 8000) 96 0 1500, .translate (emptyPacket 1 102 8320) 96 320 1500,
    .translate (emptyPacket 2 500 90) 96 480 1500]

end Translator

end SiphonRtp.Media
