import Mathlib.Data.List.ReduceOption
import SiphonRtp.Machine.Serial
import SiphonRtp.Media.Translator
import SiphonRtp.Srtp.RtpContext

/-!
# The numbers of a translated stream

The egress number of a packet is the number of a *position*: the numbers of the earlier runs, plus
the distance of the packet from the first of its own run (`Tally`, `egress_eq_position`). A run is
mapped by the offset of the packet that happened to arrive first, so a packet that overtook it takes
a position of the run before, and the numbers are the packets' own when none does.
-/

set_option autoImplicit false

namespace SiphonRtp.Media

open Machine
open Translator (TranslatorCall ahead16_succ emptyPacket translate_forwarded translate_kept
  source_of_mapped numbers_of_readsAs)

/-! ### Positions -/

/-- The runs of a stream so far, as the inbound numbers count them. -/
structure Tally where
  /-- The runs begun. -/
  runs : ℕ
  /-- The number of the packet that began the current run. -/
  first : UInt16
  /-- How many numbers the runs before the current one span. -/
  before : ℕ
  /-- How far ahead of its first packet the current run has been. -/
  width : ℕ
  /-- How far behind the first packet of its run any packet has been. -/
  depth : ℕ
deriving DecidableEq

namespace Tally

def empty : Tally := ⟨0, 0, 0, 0, 0⟩

/-- How far a number is ahead of the first packet of the current run. -/
def distance (tally : Tally) (sequence : UInt16) : ℤ := serial (sequence - tally.first)

/-- The tally with a forwarded packet. -/
def noted (tally : Tally) (rebased : Bool) (sequence : UInt16) : Tally :=
  if rebased then
    { runs := tally.runs + 1
      first := sequence
      before := if tally.runs = 0 then 0 else tally.before + tally.width + 1
      width := 0
      depth := tally.depth }
  else
    { tally with
      width := max tally.width (tally.distance sequence).toNat
      depth := max tally.depth (-tally.distance sequence).toNat }

end Tally

/-- A forwarded packet: its run, its datagram, its distance from the first packet of the run, and
the egress number it was given. -/
structure Placed where
  run : ℕ
  inbound : Bytes
  before : ℕ
  distance : ℤ
  egress : UInt16
deriving DecidableEq

/-- The inbound number of a forwarded packet. -/
def Placed.sequence (sent : Placed) : UInt16 := readU16 sent.inbound 2

/-- Where in the egress stream the packet belongs. -/
def Placed.position (sent : Placed) : ℤ := sent.before + sent.distance

/-- A translator with the tally of its stream. -/
structure Stream where
  translator : Translator
  tally : Tally

/-- One call on the translator, with the packet it forwarded. -/
def Stream.step (stream : Stream) : TranslatorCall → Option Placed × Stream
  | .switchSource => (none, { stream with translator := stream.translator.switchSource })
  | .translate inbound payloadType clock capacity =>
    match stream.translator.translate inbound payloadType clock capacity with
    | (.ok (.packet bytes rebased), translator) =>
      let tally := stream.tally.noted rebased (readU16 inbound 2)
      (some {
          run := tally.runs
          inbound
          before := tally.before
          distance := tally.distance (readU16 inbound 2)
          egress := readU16 bytes 2 },
        { translator, tally })
    | (_, translator) => (none, { stream with translator })

/-- The translator of a stream numbers its packets by their positions. -/
structure Numbered (initial : UInt16) (stream : Stream) : Prop where
  origin : stream.translator.initialSequence = initial
  unsent : stream.translator.sentAny = false → stream.tally.runs = 0
  last : stream.translator.sentAny = true → 1 ≤ stream.tally.runs ∧
    stream.translator.lastSequence =
      initial + UInt16.ofInt ((stream.tally.before : ℤ) + stream.tally.width)
  source : ∀ source, stream.translator.source = some source →
    stream.translator.sentAny = true ∧ source.firstSequence = stream.tally.first ∧
      source.baseSequence = initial + UInt16.ofInt stream.tally.before
  narrow : stream.tally.width ≤ 2 ^ 14

theorem numbered_new (egressSsrc : UInt32) (initialSequence : UInt16) (initialTimestamp : UInt32) :
    Numbered initialSequence
      ⟨Translator.new egressSsrc initialSequence initialTimestamp, Tally.empty⟩ :=
  ⟨rfl, fun _ ↦ rfl, (fun h ↦ by cases h), (fun _ h ↦ by cases h), Nat.zero_le _⟩

theorem serial_zero : serial 0 = 0 := rfl

theorem distance_noted_rebased (tally : Tally) (sequence : UInt16) :
    (tally.noted true sequence).distance sequence = 0 := by
  change serial (sequence - sequence) = 0
  rw [UInt16.sub_self, serial_zero]

theorem ahead16_eq_serial (a b : UInt16) : ahead16 a b = decide (0 < serial (a - b)) := by
  have hbound := (a - b).toNat_lt
  unfold ahead16 serial
  rw [decide_eq_decide]
  split_ifs <;> omega

/-- The highest number sent, with a packet that is mapped. -/
theorem last_followed (initial : UInt16) {before width : ℕ} {distance : ℤ}
    (hnarrow : width ≤ 2 ^ 14) (hlow : -2 ^ 14 ≤ distance) (hhigh : distance ≤ 2 ^ 14) :
    (if ahead16 (initial + UInt16.ofInt (before + distance))
        (initial + UInt16.ofInt ((before : ℤ) + width)) then
      initial + UInt16.ofInt (before + distance)
    else initial + UInt16.ofInt ((before : ℤ) + width)) =
      initial + UInt16.ofInt ((before : ℤ) + (max width distance.toNat : ℕ)) := by
  have hserial := serial_sub_ofInt initial (m := before + distance) (n := (before : ℤ) + width)
    (by omega) (by omega)
  rw [ahead16_eq_serial, hserial]
  by_cases hahead : 0 < (before : ℤ) + distance - (before + width)
  · rw [if_pos (decide_eq_true hahead)]
    congr 2
    omega
  · rw [if_neg (by simpa using hahead)]
    congr 2
    omega

/-- The step lemma of a rebase. -/
theorem Numbered.rebased {initial : UInt16} {stream : Stream} (hnumbered : Numbered initial stream)
    {packet : RtpPacket} (clock : UInt32) :
    (stream.translator.rebasedTo clock).1 =
        initial + UInt16.ofInt (stream.tally.noted true packet.sequence).before ∧
      Numbered initial ⟨stream.translator.commit packet true (stream.translator.rebasedTo clock).1
        (stream.translator.rebasedTo clock).2 clock,
        stream.tally.noted true packet.sequence⟩ := by
  have hegress : (stream.translator.rebasedTo clock).1 =
      initial + UInt16.ofInt (stream.tally.noted true packet.sequence).before := by
    cases hsent : stream.translator.sentAny with
    | false =>
      have hruns := hnumbered.unsent hsent
      simp only [Translator.rebasedTo, hsent, Tally.noted, hruns, hnumbered.origin]
      simp
      rfl
    | true =>
      obtain ⟨hruns, hlast⟩ := hnumbered.last hsent
      simp only [Translator.rebasedTo, hsent, Tally.noted, hlast,
        show stream.tally.runs ≠ 0 by omega]
      push_cast
      rw [UInt16.ofInt_add _ 1]
      exact UInt16.add_assoc _ _ _
  refine ⟨hegress, hnumbered.origin, (fun h ↦ by cases h), fun _ ↦ ⟨Nat.le_add_left 1 _, ?_⟩,
    ?_, Nat.zero_le _⟩
  · have hlast : (stream.translator.commit packet true (stream.translator.rebasedTo clock).1
        (stream.translator.rebasedTo clock).2 clock).lastSequence =
          (stream.translator.rebasedTo clock).1 := by
      cases hsent : stream.translator.sentAny with
      | false => simp [Translator.commit, hsent]
      | true =>
        simp [Translator.commit, Translator.rebasedTo, hsent, ahead16_succ]
    exact hlast.trans hegress
  · intro source hsource
    obtain rfl := Option.some.inj hsource
    exact ⟨rfl, rfl, hegress⟩

/-- The step lemma of a packet that is mapped. Assumes: it lies within 2^14 of the first packet of
its run. -/
theorem Numbered.followed {initial : UInt16} {stream : Stream}
    (hnumbered : Numbered initial stream) {packet : RtpPacket} {source : Source}
    (hsource : stream.translator.source = some source)
    (hlow : -2 ^ 14 ≤ stream.tally.distance packet.sequence)
    (hhigh : stream.tally.distance packet.sequence ≤ 2 ^ 14) (timestamp clock : UInt32) :
    source.baseSequence + (packet.sequence - source.firstSequence) =
        initial + UInt16.ofInt (stream.tally.before + stream.tally.distance packet.sequence) ∧
      Numbered initial ⟨stream.translator.commit packet false
        (source.baseSequence + (packet.sequence - source.firstSequence)) timestamp clock,
        stream.tally.noted false packet.sequence⟩ := by
  obtain ⟨hsent, hfirst, hbase⟩ := hnumbered.source source hsource
  obtain ⟨hruns, hlast⟩ := hnumbered.last hsent
  have hegress : source.baseSequence + (packet.sequence - source.firstSequence) =
      initial + UInt16.ofInt (stream.tally.before + stream.tally.distance packet.sequence) := by
    rw [UInt16.ofInt_add, Tally.distance, ofInt_serial, hbase, hfirst]
    exact UInt16.add_assoc _ _ _
  have hnarrow := hnumbered.narrow
  refine ⟨hegress, hnumbered.origin, (fun h ↦ by cases h), fun _ ↦ ⟨hruns, ?_⟩, ?_, ?_⟩
  · change (if !stream.translator.sentAny || ahead16 _ stream.translator.lastSequence then _
      else stream.translator.lastSequence) = _
    rw [hsent, hlast, hegress]
    exact last_followed initial hnarrow hlow hhigh
  · intro after hafter
    change stream.translator.source.map _ = some after at hafter
    rw [hsource, Option.map_some] at hafter
    obtain rfl := Option.some.inj hafter
    refine ⟨rfl, ?_, ?_⟩
    · split <;> exact hfirst
    · split <;> exact hbase
  · change max stream.tally.width (stream.tally.distance packet.sequence).toNat ≤ 2 ^ 14
    omega

/-- What one call does to a stream: its numbers stay the numbers of their positions. Assumes: a
packet it forwards lies within 2^14 of the first packet of its run. -/
theorem Numbered.step {initial : UInt16} {stream : Stream} (hnumbered : Numbered initial stream)
    (input : TranslatorCall)
    (hwithin : ∀ sent, (stream.step input).1 = some sent →
      -2 ^ 14 ≤ sent.distance ∧ sent.distance ≤ 2 ^ 14) :
    Numbered initial (stream.step input).2 ∧
      ∀ sent, (stream.step input).1 = some sent →
        1 ≤ sent.run ∧ sent.egress = initial + UInt16.ofInt sent.position := by
  cases input with
  | switchSource =>
    exact ⟨⟨hnumbered.origin, hnumbered.unsent, hnumbered.last, (fun _ h ↦ by cases h),
      hnumbered.narrow⟩, fun _ h ↦ by cases h⟩
  | translate inbound payloadType clock capacity =>
    unfold Stream.step at hwithin ⊢
    dsimp only at hwithin ⊢
    have hkept (hrefused : ∀ bytes rebased,
        (stream.translator.translate inbound payloadType clock capacity).1 ≠
          .ok (.packet bytes rebased)) := translate_kept hrefused
    have hforwarded (bytes rebased) (hsent :
        (stream.translator.translate inbound payloadType clock capacity).1 =
          .ok (.packet bytes rebased)) := translate_forwarded hsent
    rcases hresult : stream.translator.translate inbound payloadType clock capacity with
      ⟨error | ⟨bytes, rebased⟩ | _, next⟩
    · obtain rfl : next = stream.translator := by simpa [hresult] using hkept
      exact ⟨hnumbered, fun _ h ↦ by cases h⟩
    · rw [hresult] at hwithin hforwarded
      obtain ⟨packet, hparse, hrebased, hreads, hnext⟩ := hforwarded bytes rebased rfl
      have hsequence := (RtpPacket.readFrom_of_parse hparse).sequence
      have hegress := (numbers_of_readsAs hreads).1
      dsimp only at hwithin hnext hegress ⊢
      rw [← hsequence] at hwithin ⊢
      rcases hmapped : stream.translator.mapped packet with _ | mapping
      · -- the first packet of a run
        rw [hmapped] at hrebased hnext hegress
        obtain rfl : rebased = true := hrebased
        obtain ⟨hposition, hafter⟩ := @Numbered.rebased _ _ hnumbered packet clock
        rw [hnext]
        refine ⟨hafter, fun sent hsent ↦ ?_⟩
        obtain rfl := Option.some.inj hsent
        refine ⟨Nat.le_add_left 1 _, ?_⟩
        rw [Placed.position, distance_noted_rebased]
        exact hegress.trans hposition
      · rw [hmapped] at hrebased hnext hegress
        obtain rfl : rebased = false := hrebased
        obtain ⟨source, hsource, rfl⟩ := source_of_mapped hmapped
        obtain ⟨hlow, hhigh⟩ := hwithin _ rfl
        obtain ⟨hposition, hafter⟩ := hnumbered.followed hsource hlow hhigh
          (source.baseTimestamp + (packet.timestamp - source.firstTimestamp)) clock
        rw [hnext]
        refine ⟨hafter, fun sent hsent ↦ ?_⟩
        obtain rfl := Option.some.inj hsent
        exact ⟨(hnumbered.last (hnumbered.source source hsource).1).1, hegress.trans hposition⟩
    · obtain rfl : next = stream.translator := by simpa [hresult] using hkept
      exact ⟨hnumbered, fun _ h ↦ by cases h⟩

/-! ### Tallies over time -/

/-- A later tally of the same stream. -/
structure Tally.Grows (earlier later : Tally) : Prop where
  runs : earlier.runs ≤ later.runs
  depth : earlier.depth ≤ later.depth
  same : earlier.runs = later.runs → earlier.first = later.first ∧ earlier.before = later.before
  reach : 1 ≤ earlier.runs → earlier.before + earlier.width ≤ later.before + later.width
  past : 1 ≤ earlier.runs → earlier.runs < later.runs →
    earlier.before + earlier.width < later.before

theorem Tally.Grows.refl (tally : Tally) : tally.Grows tally :=
  ⟨le_rfl, le_rfl, fun _ ↦ ⟨rfl, rfl⟩, fun _ ↦ le_rfl, fun _ h ↦ absurd h (lt_irrefl _)⟩

theorem Tally.Grows.trans {first second third : Tally} (h : first.Grows second)
    (h' : second.Grows third) : first.Grows third := by
  have hruns := h.runs
  have hruns' := h'.runs
  refine ⟨hruns.trans hruns', h.depth.trans h'.depth, fun heq ↦ ?_, fun hpos ↦ ?_,
    fun hpos hlt ↦ ?_⟩
  · obtain ⟨hfirst, hbefore⟩ := h.same (by omega)
    obtain ⟨hfirst', hbefore'⟩ := h'.same (by omega)
    exact ⟨hfirst.trans hfirst', hbefore.trans hbefore'⟩
  · exact (h.reach hpos).trans (h'.reach (by omega))
  · -- the run ends in one of the two stretches
    have hreach := h.reach hpos
    by_cases hmiddle : first.runs < second.runs
    · have hpast := h.past hpos hmiddle
      by_cases hlast : second.runs < third.runs
      · have hpast' := h'.past (by omega) hlast
        omega
      · have hsame := (h'.same (by omega)).2
        omega
    · have hpast' := h'.past (by omega) (by omega)
      omega

theorem Tally.grows_noted (tally : Tally) (rebased : Bool) (sequence : UInt16) :
    tally.Grows (tally.noted rebased sequence) := by
  cases rebased with
  | true =>
    refine ⟨Nat.le_succ _, le_rfl, fun h ↦ absurd h (Nat.succ_ne_self _).symm, fun hpos ↦ ?_,
      fun hpos _ ↦ ?_⟩
    · simp only [noted, if_true, show tally.runs ≠ 0 by omega, if_false]
      omega
    · simp only [noted, if_true, show tally.runs ≠ 0 by omega, if_false]
      omega
  | false =>
    refine ⟨le_rfl, le_max_left _ _, fun _ ↦ ⟨rfl, rfl⟩, fun _ ↦ ?_,
      fun _ h ↦ absurd h (lt_irrefl _)⟩
    exact Nat.add_le_add_left (le_max_left _ _) _

theorem Stream.grows_step (stream : Stream) (input : TranslatorCall) :
    stream.tally.Grows (stream.step input).2.tally := by
  cases input with
  | switchSource => exact .refl _
  | translate inbound payloadType clock capacity =>
    unfold Stream.step
    dsimp only
    split
    · exact stream.tally.grows_noted _ _
    · exact .refl _

/-- A packet that was forwarded when the tally became this one. -/
structure Placed.CountedBy (sent : Placed) (tally : Tally) : Prop where
  run : sent.run = tally.runs
  before : sent.before = tally.before
  distance : sent.distance = tally.distance sent.sequence
  ahead : sent.distance ≤ tally.width
  behind : -sent.distance ≤ tally.depth

theorem Stream.countedBy_step {stream : Stream} {input : TranslatorCall} {sent : Placed}
    (hsent : (stream.step input).1 = some sent) :
    sent.CountedBy (stream.step input).2.tally := by
  cases input with
  | switchSource => cases hsent
  | translate inbound payloadType clock capacity =>
    unfold Stream.step at hsent ⊢
    dsimp only at hsent ⊢
    split at hsent
    next bytes rebased translator _ =>
      obtain rfl := Option.some.inj hsent
      refine ⟨rfl, rfl, rfl, ?_, ?_⟩
      · cases rebased with
        | true => exact (distance_noted_rebased _ _).le
        | false =>
          change stream.tally.distance (readU16 inbound 2) ≤
            (max stream.tally.width (stream.tally.distance (readU16 inbound 2)).toNat : ℕ)
          omega
      · cases rebased with
        | true =>
          rw [distance_noted_rebased]
          exact Int.natCast_nonneg _
        | false =>
          change -stream.tally.distance (readU16 inbound 2) ≤
            (max stream.tally.depth (-stream.tally.distance (readU16 inbound 2)).toNat : ℕ)
          omega
    · cases hsent

/-! ### The numbers of a whole stream -/

section Streams

variable (ssrc : UInt32) (initial : UInt16) (timestamp : UInt32)
  (inputs : List TranslatorCall)

/-- The stream of a new translator before position `k`. -/
def streamAt (k : ℕ) : Stream :=
  final Stream.step ⟨Translator.new ssrc initial timestamp, Tally.empty⟩
    (inputs.take k)

/-- The packet forwarded at position `k`. -/
def SentAt (k : ℕ) (sent : Placed) : Prop :=
  (outputs Stream.step ⟨Translator.new ssrc initial timestamp, Tally.empty⟩
    inputs)[k]? = some (some sent)

/-- Forwarded packets lie within 2^14 of the first packet of their run. -/
def WithinRuns : Prop :=
  ∀ k sent, SentAt ssrc initial timestamp inputs k sent →
    -2 ^ 14 ≤ sent.distance ∧ sent.distance ≤ 2 ^ 14

/-- In one run, a number names one packet. -/
def NamesPackets : Prop :=
  ∀ i j sent other, SentAt ssrc initial timestamp inputs i sent →
    SentAt ssrc initial timestamp inputs j other →
      sent.run = other.run → sent.sequence = other.sequence → sent.inbound = other.inbound

/-- No packet overtook the one that began its run, the first run apart. -/
def RunsBeginFirst : Prop :=
  ∀ k sent, SentAt ssrc initial timestamp inputs k sent →
    sent.distance < 0 → sent.run = 1

/-- The tally of the whole stream. -/
def wholeTally : Tally :=
  (streamAt ssrc initial timestamp inputs inputs.length).tally

/-- The numbers of all runs fit one cycle of 2^16. -/
def FitsOneCycle : Prop :=
  (wholeTally ssrc initial timestamp inputs).before +
    (wholeTally ssrc initial timestamp inputs).width +
    (wholeTally ssrc initial timestamp inputs).depth < 2 ^ 16

/-- Forwarded packets with one egress number, or with one SRTP index whatever their rollover
counters are, are copies of one packet of one run. -/
structure OwnNumbers : Prop where
  number : ∀ i j sent other, SentAt ssrc initial timestamp inputs i sent →
    SentAt ssrc initial timestamp inputs j other →
      sent.egress = other.egress → sent.run = other.run ∧ sent.inbound = other.inbound
  index : ∀ i j sent other, SentAt ssrc initial timestamp inputs i sent →
    SentAt ssrc initial timestamp inputs j other →
      ∀ roc roc', Srtp.packetIndex roc sent.egress = Srtp.packetIndex roc' other.egress →
        sent.run = other.run ∧ sent.inbound = other.inbound

variable {ssrc initial timestamp inputs}

theorem SentAt.step {k : ℕ} {sent : Placed}
    (hsent : SentAt ssrc initial timestamp inputs k sent) :
    ∃ input, inputs[k]? = some input ∧
      ((streamAt ssrc initial timestamp inputs k).step input).1 = some sent ∧
      streamAt ssrc initial timestamp inputs (k + 1) =
        ((streamAt ssrc initial timestamp inputs k).step input).2 := by
  have hlength := (List.getElem?_eq_some_iff.mp hsent).1
  rw [length_outputs] at hlength
  have hinput : inputs[k]? = some inputs[k] := List.getElem?_eq_getElem hlength
  exact ⟨_, hinput, output_at Stream.step hinput hsent, final_take_succ Stream.step hinput _⟩

/-- The run lemma: the translator numbers its packets by their positions. -/
theorem numbered_streamAt
    (hwithin : WithinRuns ssrc initial timestamp inputs) {k : ℕ}
    (hk : k ≤ inputs.length) :
    Numbered initial (streamAt ssrc initial timestamp inputs k) :=
  final_take_induction (fun _ ↦ Numbered initial)
    (numbered_new ssrc initial timestamp)
    (fun k input hinput hnumbered ↦ (hnumbered.step input fun sent hsent ↦
      hwithin k sent ((getElem?_outputs_of_eq Stream.step hinput _).trans (congrArg some hsent))).1)
    hk

/-- Every forwarded packet has the number of its position. -/
theorem egress_eq_position
    (hwithin : WithinRuns ssrc initial timestamp inputs) {k : ℕ} {sent : Placed}
    (hsent : SentAt ssrc initial timestamp inputs k sent) :
    1 ≤ sent.run ∧ sent.egress = initial + UInt16.ofInt sent.position := by
  obtain ⟨input, hinput, hstep, -⟩ := hsent.step
  have hlt := (List.getElem?_eq_some_iff.mp hinput).1
  refine ((numbered_streamAt hwithin hlt.le).step input fun other hother ↦ ?_).2 sent hstep
  obtain rfl := Option.some.inj (hstep.symm.trans hother)
  exact hwithin k _ hsent

theorem grows_streamAt {i j : ℕ} (hij : i ≤ j) :
    (streamAt ssrc initial timestamp inputs i).tally.Grows
      (streamAt ssrc initial timestamp inputs j).tally :=
  final_take_rel (fun before after : Stream ↦ before.tally.Grows after.tally)
    (fun stream ↦ .refl stream.tally) (fun h h' ↦ h.trans h') Stream.grows_step _ inputs hij

theorem SentAt.countedBy {k : ℕ} {sent : Placed}
    (hsent : SentAt ssrc initial timestamp inputs k sent) :
    sent.CountedBy
      (streamAt ssrc initial timestamp inputs (k + 1)).tally := by
  obtain ⟨input, -, hstep, hnext⟩ := hsent.step
  rw [hnext]
  exact Stream.countedBy_step hstep

/-- A packet of an earlier run has an earlier position. -/
theorem position_lt_of_run_lt
    (hwithin : WithinRuns ssrc initial timestamp inputs)
    (hbegin : RunsBeginFirst ssrc initial timestamp inputs) {i j : ℕ}
    {sent other : Placed} (hsent : SentAt ssrc initial timestamp inputs i sent)
    (hother : SentAt ssrc initial timestamp inputs j other)
    (hlt : sent.run < other.run) : sent.position < other.position := by
  have hcounted := hsent.countedBy
  have hcounted' := hother.countedBy
  have hpos := (egress_eq_position hwithin hsent).1
  have hahead := hcounted.ahead
  have hdistance : 0 ≤ other.distance := by
    by_contra hneg
    have hone := hbegin j other hother (by omega)
    omega
  rw [hcounted.run, hcounted'.run] at hlt
  rw [hcounted.run] at hpos
  have hij : i + 1 ≤ j + 1 := by
    by_contra hji
    have hruns := (@grows_streamAt ssrc initial timestamp inputs _ _
      (show j + 1 ≤ i + 1 by omega)).runs
    omega
  have hpast := (grows_streamAt hij).past hpos hlt
  unfold Placed.position
  rw [hcounted.before, hcounted'.before]
  omega

/-- Packets of one run at one position have one inbound number. -/
theorem sequence_eq_of_position_eq {i j : ℕ} {sent other : Placed} (hij : i ≤ j)
    (hsent : SentAt ssrc initial timestamp inputs i sent)
    (hother : SentAt ssrc initial timestamp inputs j other)
    (hrun : sent.run = other.run) (hposition : sent.position = other.position) :
    sent.sequence = other.sequence := by
  have hcounted := hsent.countedBy
  have hcounted' := hother.countedBy
  rw [hcounted.run, hcounted'.run] at hrun
  obtain ⟨hfirst, hbefore⟩ := (grows_streamAt (Nat.succ_le_succ hij)).same hrun
  unfold Placed.position at hposition
  rw [hcounted.before, hcounted'.before, hbefore, hcounted.distance, hcounted'.distance,
    Tally.distance, Tally.distance, hfirst] at hposition
  have hserial := congrArg UInt16.ofInt (Int.add_left_cancel hposition)
  rw [ofInt_serial, ofInt_serial] at hserial
  exact (UInt16.sub_left_inj _).mp hserial

/-- The positions of all packets lie in one window. -/
theorem position_window
    (hwithin : WithinRuns ssrc initial timestamp inputs) {k : ℕ} {sent : Placed}
    (hsent : SentAt ssrc initial timestamp inputs k sent) :
    -((wholeTally ssrc initial timestamp inputs).depth : ℤ) ≤ sent.position ∧
      sent.position ≤ (wholeTally ssrc initial timestamp inputs).before +
        (wholeTally ssrc initial timestamp inputs).width := by
  have hcounted := hsent.countedBy
  obtain ⟨input, hinput, -⟩ := hsent.step
  have hlt := (List.getElem?_eq_some_iff.mp hinput).1
  have hgrows := @grows_streamAt ssrc initial timestamp inputs _ _
    (show k + 1 ≤ _ from hlt)
  have hdepth := hgrows.depth
  have hpos := (egress_eq_position hwithin hsent).1
  have hreach := hgrows.reach (hcounted.run ▸ hpos)
  have hahead := hcounted.ahead
  have hbehind := hcounted.behind
  unfold Placed.position wholeTally
  rw [hcounted.before]
  omega

end Streams

/-! ### A talker change -/

/-- The packets of two talkers. -/
def talkers (packets : List (UInt32 × UInt16)) : List TranslatorCall :=
  packets.map fun packet ↦ .translate (emptyPacket packet.1 packet.2 0) 0 0 1500

/-- The packets of two talkers as a new translator sends them on. -/
def numbersOf (packets : List (UInt32 × UInt16)) : List (Option Placed) :=
  outputs Stream.step ⟨Translator.new 7 1000 0, Tally.empty⟩ (talkers packets)

theorem SentAt.mem_numbersOf {packets : List (UInt32 × UInt16)} {k : ℕ} {sent : Placed}
    (hsent : SentAt 7 1000 0 (talkers packets) k sent) : some sent ∈ numbersOf packets :=
  List.mem_of_getElem? hsent

theorem withinRuns_of_numbersOf {packets : List (UInt32 × UInt16)}
    (hall : ∀ sent ∈ (numbersOf packets).reduceOption,
      -2 ^ 14 ≤ sent.distance ∧ sent.distance ≤ 2 ^ 14) :
    WithinRuns 7 1000 0 (talkers packets) := fun _ sent hsent ↦
  hall sent (List.reduceOption_mem_iff.mpr hsent.mem_numbersOf)

theorem namesPackets_of_numbersOf {packets : List (UInt32 × UInt16)}
    (hall : ∀ sent ∈ (numbersOf packets).reduceOption,
      ∀ other ∈ (numbersOf packets).reduceOption,
        sent.run = other.run → sent.sequence = other.sequence → sent.inbound = other.inbound) :
    NamesPackets 7 1000 0 (talkers packets) := fun _ _ sent other hsent hother ↦
  hall sent (List.reduceOption_mem_iff.mpr hsent.mem_numbersOf) other
    (List.reduceOption_mem_iff.mpr hother.mem_numbersOf)

end SiphonRtp.Media
