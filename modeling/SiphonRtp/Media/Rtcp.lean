import SiphonRtp.Machine.Octets
import Mathlib.Data.Nat.Bitwise

/-!
# RTCP compound packets

`siphon-rtp-media/src/rtcp.rs`: parsing a compound packet into its reports, writing a sender report,
and putting another SSRC in the place of the senders' of a compound that is relayed. A caller's
output buffer is its capacity, and what is written is the result. The application packets have
readers of their own, in `Engine/AppPackets.lean`.

A well-formed compound is a sequence of packets (`IsRtcp`), one behind the other, and the three
loops of the source each take one of them off the front: a buffer is such a sequence, or the parser
and the rewriter both refuse it (`compound_cases`).
-/

set_option autoImplicit false

namespace SiphonRtp.Media.Rtcp

open Machine

inductive RtcpError
  | tooShort
  | badVersion (version : UInt8)
  | badLength
deriving DecidableEq

def senderReportType : UInt8 := 200

def receiverReportType : UInt8 := 201

structure ReportBlock where
  ssrc : UInt32
  fractionLost : UInt8
  cumulativeLost : Int32
  highestSequence : UInt32
  jitter : UInt32
  lastSenderReport : UInt32
  delaySinceLastSr : UInt32
deriving DecidableEq

def reportBlockLen : ℕ := 24

/-- The cumulative loss of a block, its 24 bits sign-extended. -/
def readCumulativeLost (buffer : Bytes) : Int32 :=
  let raw := UInt32.ofNat (fromBe [0, octet buffer 5, octet buffer 6, octet buffer 7])
  if raw &&& 0x00800000 ≠ 0 then (raw ||| 0xFF000000).toInt32 else raw.toInt32

/-- `ReportBlock::parse`. -/
def ReportBlock.parse (buffer : Bytes) : Option ReportBlock :=
  if buffer.length < reportBlockLen then none
  else some {
    ssrc := readU32 buffer 0
    fractionLost := octet buffer 4
    cumulativeLost := readCumulativeLost buffer
    highestSequence := readU32 buffer 8
    jitter := readU32 buffer 12
    lastSenderReport := readU32 buffer 16
    delaySinceLastSr := readU32 buffer 20 }

structure SenderReport where
  ssrc : UInt32
  ntpTimestamp : UInt64
  rtpTimestamp : UInt32
  packetCount : UInt32
  octetCount : UInt32
  reports : List ReportBlock
deriving DecidableEq

structure ReceiverReport where
  ssrc : UInt32
  reports : List ReportBlock
deriving DecidableEq

inductive RtcpPacket
  | senderReport (report : SenderReport)
  | receiverReport (report : ReceiverReport)
  | other (packetType : UInt8)
deriving DecidableEq

def RtcpPacket.isReport : RtcpPacket → Bool
  | senderReport _ | receiverReport _ => true
  | other _ => false

/-! ### Writing -/

def senderReportLen : ℕ := 28

def receptionReportLen : ℕ := 24

structure ReceptionReport where
  ssrc : UInt32
  fractionLost : UInt8
  cumulativeLost : UInt32
  extendedHighestSeq : UInt32
  jitter : UInt32
  lastSr : UInt32
  delayLastSr : UInt32
deriving DecidableEq

/-- One block of a written report. -/
def ReceptionReport.octets (report : ReceptionReport) : Bytes :=
  toBe 4 report.ssrc.toNat ++ (report.fractionLost ::
    (toBe 3 (report.cumulativeLost &&& 0x00FFFFFF).toNat ++
      (toBe 4 report.extendedHighestSeq.toNat ++ (toBe 4 report.jitter.toNat ++
        (toBe 4 report.lastSr.toNat ++ toBe 4 report.delayLastSr.toNat)))))

/-- `write_sender_report`, into a buffer of `capacity` octets. -/
def writeSenderReport (ssrc : UInt32) (ntpTimestamp : UInt64) (rtpTimestamp packetCount : UInt32)
    (octetCount : UInt32) (reports : List ReceptionReport) (capacity : ℕ) : Option Bytes :=
  let reportCount := min reports.length 31
  let total := senderReportLen + reportCount * receptionReportLen
  if capacity < total then none
  else some ((0x80 ||| UInt8.ofNat reportCount) :: senderReportType ::
    (toBe 2 (UInt16.ofNat (total / 4 - 1)).toNat ++ (toBe 4 ssrc.toNat ++
      (toBe 8 ntpTimestamp.toNat ++ (toBe 4 rtpTimestamp.toNat ++ (toBe 4 packetCount.toNat ++
        (toBe 4 octetCount.toNat ++
          (reports.take reportCount).flatMap ReceptionReport.octets)))))))

/-! ### Reading -/

/-- `read_report_blocks`. -/
def readReportBlocks (body : Bytes) : ℕ → List ReportBlock
  | 0 => []
  | count + 1 =>
    match ReportBlock.parse (body.take reportBlockLen) with
    | some block => block :: readReportBlocks (body.drop reportBlockLen) count
    | none => []

/-- The octets of the packet that a buffer begins with, by its length field. -/
def packetLen (buffer : Bytes) : ℕ := ((readU16 buffer 2).toNat + 1) * 4

/-- What `parse_compound` pushes for one packet. -/
def readPacket (packet : Bytes) : RtcpPacket :=
  let reportCount := (octet packet 0 &&& 0x1F).toNat
  let body := packet.drop 4
  if octet packet 1 = senderReportType ∧ 24 ≤ body.length then
    .senderReport {
      ssrc := readU32 body 0
      ntpTimestamp := ((readU32 body 4).toUInt64 <<< 32) ||| (readU32 body 8).toUInt64
      rtpTimestamp := readU32 body 12
      packetCount := readU32 body 16
      octetCount := readU32 body 20
      reports := readReportBlocks (body.drop 24) reportCount }
  else if octet packet 1 = receiverReportType ∧ 4 ≤ body.length then
    .receiverReport {
      ssrc := readU32 body 0
      reports := readReportBlocks (body.drop 4) reportCount }
  else .other (octet packet 1)

theorem length_drop_packetLen {buffer : Bytes} (hne : buffer ≠ []) :
    (buffer.drop (packetLen buffer)).length < buffer.length := by
  have hpos := List.length_pos_iff.mpr hne
  rw [List.length_drop, packetLen]
  omega

/-- `parse_compound`, from a packet on. -/
def parseCompound (buffer : Bytes) : Except RtcpError (List RtcpPacket) :=
  if _hnil : buffer = [] then .ok []
  else if buffer.length < 4 then .error .tooShort
  else if octet buffer 0 >>> 6 ≠ 2 then .error (.badVersion (octet buffer 0 >>> 6))
  else if buffer.length < packetLen buffer then .error .badLength
  else do
    let packets ← parseCompound (buffer.drop (packetLen buffer))
    .ok (readPacket (buffer.take (packetLen buffer)) :: packets)
termination_by buffer.length
decreasing_by exact length_drop_packetLen _hnil

/-! ### Rewriting -/

/-- The first loop of `rewrite_report_sender_ssrc`: the whole compound is well formed. -/
def validates (buffer : Bytes) : Bool :=
  if _hnil : buffer = [] then true
  else if buffer.length < 4 then false
  else if octet buffer 0 >>> 6 ≠ 2 then false
  else if packetLen buffer = 0 ∨ buffer.length < packetLen buffer then false
  else validates (buffer.drop (packetLen buffer))
termination_by buffer.length
decreasing_by exact length_drop_packetLen _hnil

/-- The second loop of `rewrite_report_sender_ssrc`, and how many reports it has rewritten. -/
def rewriteFrom (ssrc : UInt32) (buffer : Bytes) : Bytes × ℕ :=
  if _hnil : buffer = [] then ([], 0)
  else
    let length := packetLen buffer
    let packet := buffer.take length
    let later := rewriteFrom ssrc (buffer.drop length)
    if (octet buffer 1 = senderReportType ∨ octet buffer 1 = receiverReportType) ∧ 8 ≤ length then
      (packet.take 4 ++ (toBe 4 ssrc.toNat ++ (packet.drop 8 ++ later.1)), later.2 + 1)
    else (packet ++ later.1, later.2)
termination_by buffer.length
decreasing_by exact length_drop_packetLen _hnil

/-- `rewrite_report_sender_ssrc`. -/
def rewriteReportSenderSsrc (buffer : Bytes) (ssrc : UInt32) : Bytes × ℕ :=
  if validates buffer then rewriteFrom ssrc buffer else (buffer, 0)

/-! ### Compounds -/

/-- One packet of a compound. -/
structure IsRtcp (packet : Bytes) : Prop where
  header : 4 ≤ packet.length
  version : octet packet 0 >>> 6 = 2
  length : packetLen packet = packet.length

section Walk

variable {packet : Bytes}

theorem packetLen_append (hpacket : 4 ≤ packet.length) (rest : Bytes) :
    packetLen (packet ++ rest) = packetLen packet := by
  simp only [packetLen, readU16, octet_append_left (show 2 < packet.length by omega),
    octet_append_left (show 2 + 1 < packet.length by omega)]

theorem IsRtcp.ne_nil (hpacket : IsRtcp packet) (rest : Bytes) : packet ++ rest ≠ [] := by
  intro hnil
  have hheader := hpacket.header
  rw [(List.append_eq_nil_iff.mp hnil).1] at hheader
  exact absurd hheader (by decide)

/-- The loops of the source read the header of the packet they are at. -/
theorem IsRtcp.head (hpacket : IsRtcp packet) (rest : Bytes) :
    ¬ (packet ++ rest).length < 4 ∧ octet (packet ++ rest) 0 >>> 6 = 2 ∧
      packetLen (packet ++ rest) = packet.length ∧ octet (packet ++ rest) 1 = octet packet 1 := by
  have hheader := hpacket.header
  refine ⟨?_, ?_, ?_, octet_append_left (by omega)⟩
  · rw [List.length_append]
    omega
  · rw [octet_append_left (by omega)]
    exact hpacket.version
  · rw [packetLen_append hheader, hpacket.length]

theorem parseCompound_append (hpacket : IsRtcp packet) (rest : Bytes) :
    parseCompound (packet ++ rest) = (parseCompound rest).map (readPacket packet :: ·) := by
  obtain ⟨hheader, hversion, hlength, -⟩ := hpacket.head rest
  have hfits : ¬ (packet ++ rest).length < packet.length := by
    rw [List.length_append]
    omega
  rw [parseCompound, dif_neg (hpacket.ne_nil rest), if_neg hheader, if_neg (not_not.mpr hversion),
    hlength, if_neg hfits, List.drop_left, List.take_left]
  cases parseCompound rest <;> rfl

theorem validates_append (hpacket : IsRtcp packet) (rest : Bytes) :
    validates (packet ++ rest) = validates rest := by
  obtain ⟨hheader, hversion, hlength, -⟩ := hpacket.head rest
  have hfits : ¬ (packet.length = 0 ∨ (packet ++ rest).length < packet.length) := by
    have hfour := hpacket.header
    rw [List.length_append]
    omega
  rw [validates, dif_neg (hpacket.ne_nil rest), if_neg hheader, if_neg (not_not.mpr hversion),
    hlength, if_neg hfits, List.drop_left]

/-- A sender or receiver report, with its sender's SSRC. -/
def HasSender (packet : Bytes) : Prop :=
  (octet packet 1 = senderReportType ∨ octet packet 1 = receiverReportType) ∧ 8 ≤ packet.length

instance : DecidablePred HasSender := fun _ ↦ inferInstanceAs (Decidable (_ ∧ _))

/-- What the parser reads as a report has a sender, and so has a sender report that is cut short
behind it. -/
theorem hasSender_iff (packet : Bytes) :
    HasSender packet ↔ (readPacket packet).isReport = true ∨
      octet packet 1 = senderReportType ∧ 8 ≤ packet.length ∧ packet.length < senderReportLen := by
  unfold HasSender readPacket
  dsimp only
  rw [List.length_drop]
  split_ifs with hsender hreceiver
  · simp only [RtcpPacket.isReport, true_or, iff_true]
    exact ⟨.inl hsender.1, by omega⟩
  · simp only [RtcpPacket.isReport, true_or, iff_true]
    exact ⟨.inr hreceiver.1, by omega⟩
  · simp only [RtcpPacket.isReport, Bool.false_eq_true, false_or, senderReportLen]
    rw [not_and] at hsender hreceiver
    constructor
    · rintro ⟨hsender' | hreceiver', hlength⟩
      · exact ⟨hsender', hlength, by have := hsender hsender'; omega⟩
      · exact absurd (hreceiver hreceiver') (by omega)
    · exact fun h ↦ ⟨.inl h.1, h.2.1⟩

/-- A packet with another sender in the octets of the sender's SSRC. -/
def withSender (ssrc : UInt32) (packet : Bytes) : Bytes :=
  if HasSender packet then packet.take 4 ++ (toBe 4 ssrc.toNat ++ packet.drop 8) else packet

theorem rewriteFrom_append (ssrc : UInt32) (hpacket : IsRtcp packet) (rest : Bytes) :
    rewriteFrom ssrc (packet ++ rest) =
      (withSender ssrc packet ++ (rewriteFrom ssrc rest).1,
        (rewriteFrom ssrc rest).2 + if HasSender packet then 1 else 0) := by
  obtain ⟨-, -, hlength, htype⟩ := hpacket.head rest
  rw [rewriteFrom, dif_neg (hpacket.ne_nil rest)]
  dsimp only
  rw [hlength, htype, List.drop_left, List.take_left]
  by_cases hsender : HasSender packet
  · rw [if_pos (show (_ ∨ _) ∧ _ from hsender), withSender, if_pos hsender, if_pos hsender]
    simp only [List.append_assoc]
  · rw [if_neg (show ¬ ((_ ∨ _) ∧ _) from hsender), withSender, if_neg hsender, if_neg hsender,
      Nat.add_zero]

/-- A buffer that does not begin with a packet is refused by both. -/
theorem head_cases {buffer : Bytes} (hne : buffer ≠ []) :
    (∃ packet rest, IsRtcp packet ∧ buffer = packet ++ rest) ∨
      (∃ error, parseCompound buffer = .error error) ∧ validates buffer = false := by
  by_cases hheader : buffer.length < 4
  · refine .inr ⟨⟨.tooShort, ?_⟩, ?_⟩
    · rw [parseCompound, dif_neg hne, if_pos hheader]
    · rw [validates, dif_neg hne, if_pos hheader]
  by_cases hversion : octet buffer 0 >>> 6 ≠ 2
  · refine .inr ⟨⟨.badVersion (octet buffer 0 >>> 6), ?_⟩, ?_⟩
    · rw [parseCompound, dif_neg hne, if_neg hheader, if_pos hversion]
    · rw [validates, dif_neg hne, if_neg hheader, if_pos hversion]
  by_cases hlength : buffer.length < packetLen buffer
  · refine .inr ⟨⟨.badLength, ?_⟩, ?_⟩
    · rw [parseCompound, dif_neg hne, if_neg hheader, if_neg hversion, if_pos hlength]
    · rw [validates, dif_neg hne, if_neg hheader, if_neg hversion, if_pos (.inr hlength)]
  · have hfour : 4 ≤ packetLen buffer := by
      rw [packetLen]
      omega
    have htake : (buffer.take (packetLen buffer)).length = packetLen buffer := by
      rw [List.length_take]
      omega
    have hsplit := List.take_append_drop (packetLen buffer) buffer
    refine .inl ⟨_, buffer.drop (packetLen buffer), ⟨?_, ?_, ?_⟩, hsplit.symm⟩
    · exact hfour.trans_eq htake.symm
    · rw [octet_take (by omega)]
      exact not_not.mp hversion
    · rw [htake, ← packetLen_append (hfour.trans_eq htake.symm) (buffer.drop (packetLen buffer)),
        hsplit]

/-- A buffer is a compound, or both refuse it. -/
theorem compound_cases (buffer : Bytes) :
    (∃ packets : List Bytes, (∀ packet ∈ packets, IsRtcp packet) ∧ packets.flatten = buffer) ∨
      (∃ error, parseCompound buffer = .error error) ∧ validates buffer = false := by
  induction hlength : buffer.length using Nat.strong_induction_on generalizing buffer with
  | _ length ih =>
    by_cases hne : buffer = []
    · exact .inl ⟨[], by simp, hne.symm⟩
    rcases head_cases hne with ⟨packet, rest, hpacket, rfl⟩ | hrefused
    · have hshorter : rest.length < length := by
        have hheader := hpacket.header
        rw [← hlength, List.length_append]
        omega
      rcases ih _ hshorter rest rfl with ⟨packets, hpackets, rfl⟩ | ⟨⟨error, herror⟩, hinvalid⟩
      · exact .inl ⟨packet :: packets, List.forall_mem_cons.mpr ⟨hpacket, hpackets⟩, rfl⟩
      · refine .inr ⟨⟨error, ?_⟩, ?_⟩
        · rw [parseCompound_append hpacket, herror]
          rfl
        · rw [validates_append hpacket, hinvalid]
    · exact .inr hrefused

end Walk

section Compound

variable {packets : List Bytes} (hpackets : ∀ packet ∈ packets, IsRtcp packet)

include hpackets

/-- A compound parses packet by packet. -/
theorem parseCompound_flatten :
    parseCompound packets.flatten = .ok (packets.map readPacket) := by
  induction packets with
  | nil => rw [List.flatten_nil, parseCompound, dif_pos rfl, List.map_nil]
  | cons packet packets ih =>
    rw [List.forall_mem_cons] at hpackets
    rw [List.flatten_cons, parseCompound_append hpackets.1, ih hpackets.2]
    rfl

theorem rewrite_flatten (ssrc : UInt32) :
    rewriteReportSenderSsrc packets.flatten ssrc =
      ((packets.map (withSender ssrc)).flatten, packets.countP HasSender) := by
  have hvalid : validates packets.flatten = true := by
    induction packets with
    | nil => rw [List.flatten_nil, validates, dif_pos rfl]
    | cons packet packets ih =>
      rw [List.forall_mem_cons] at hpackets
      rw [List.flatten_cons, validates_append hpackets.1, ih hpackets.2]
  rw [rewriteReportSenderSsrc, if_pos hvalid]
  clear hvalid
  induction packets with
  | nil =>
    rw [rewriteFrom]
    rfl
  | cons packet packets ih =>
    rw [List.forall_mem_cons] at hpackets
    rw [List.flatten_cons, rewriteFrom_append ssrc hpackets.1, ih hpackets.2, List.countP_cons]
    simp

end Compound

theorem parseCompound_single {packet : Bytes} (hpacket : IsRtcp packet) :
    parseCompound packet = .ok [readPacket packet] := by
  have hpackets := @parseCompound_flatten [packet] (List.forall_mem_singleton.mpr hpacket)
  rwa [List.flatten_cons, List.flatten_nil, List.append_nil] at hpackets

/-- What the parser refuses is relayed as it is; in a compound the senders' SSRCs are replaced and
nothing else, and the reports that have one are counted: those of the parser, and sender reports
that are cut short behind the SSRC. -/
theorem rewrite_touches_only_senders (buffer : Bytes) (ssrc : UInt32) :
    (∀ error, parseCompound buffer = .error error →
        rewriteReportSenderSsrc buffer ssrc = (buffer, 0)) ∧
      ∀ parsed, parseCompound buffer = .ok parsed → ∃ packets : List Bytes,
        (∀ packet ∈ packets, IsRtcp packet) ∧ packets.flatten = buffer ∧
          packets.map readPacket = parsed ∧
          (∀ packet ∈ packets, HasSender packet ↔ (readPacket packet).isReport = true ∨
            octet packet 1 = senderReportType ∧ 8 ≤ packet.length ∧
              packet.length < senderReportLen) ∧
          rewriteReportSenderSsrc buffer ssrc =
            ((packets.map (withSender ssrc)).flatten, packets.countP HasSender) := by
  rcases compound_cases buffer with ⟨packets, hpackets, rfl⟩ | ⟨⟨error, herror⟩, hinvalid⟩
  · rw [parseCompound_flatten hpackets]
    refine ⟨fun _ h ↦ (by cases h), fun parsed hparsed ↦ ⟨packets, hpackets, rfl, ?_,
      fun packet _ ↦ hasSender_iff packet, ?_⟩⟩
    · exact Except.ok.inj hparsed
    · exact rewrite_flatten hpackets ssrc
  · rw [herror]
    refine ⟨fun _ _ ↦ ?_, fun _ h ↦ by cases h⟩
    rw [rewriteReportSenderSsrc, hinvalid]
    rfl

/-- Another sender changes neither the length of a packet nor its header. -/
theorem withSender_keeps (ssrc : UInt32) (packet : Bytes) :
    (withSender ssrc packet).length = packet.length ∧
      ∀ position < 4, octet (withSender ssrc packet) position = octet packet position := by
  unfold withSender
  split_ifs with hsender
  · have hlength := hsender.2
    refine ⟨by simp; omega, fun position hposition ↦ ?_⟩
    rw [octet_append_left (by rw [List.length_take]; omega), octet_take hposition]
  · exact ⟨rfl, fun _ _ ↦ rfl⟩

/-- Of two rewritings, as by two bridges in a row, the second one is all that shows. -/
theorem last_rewrite_wins (buffer : Bytes) (first second : UInt32) :
    rewriteReportSenderSsrc (rewriteReportSenderSsrc buffer first).1 second =
      rewriteReportSenderSsrc buffer second := by
  rcases compound_cases buffer with ⟨packets, hpackets, rfl⟩ | ⟨-, hinvalid⟩
  swap
  · simp [rewriteReportSenderSsrc, hinvalid]
  have hsender packet : HasSender (withSender first packet) ↔ HasSender packet := by
    obtain ⟨hlength, hheader⟩ := withSender_keeps first packet
    rw [HasSender, HasSender, hlength, hheader 1 (by decide)]
  rw [rewrite_flatten hpackets, rewrite_flatten, rewrite_flatten hpackets, List.map_map,
    List.countP_map]
  · congr 2
    · refine List.map_congr_left fun packet _ ↦ ?_
      by_cases h : HasSender packet
      · have hfour : min 4 packet.length = 4 := by have := h.2; omega
        rw [Function.comp, withSender, if_pos ((hsender packet).mpr h)]
        simp [withSender, h, hfour, List.drop_append]
      · simp [withSender, h]
    · simp [Function.comp_def, hsender]
  · refine List.forall_mem_map.mpr fun packet hmem ↦ ?_
    obtain ⟨hlength, hheader⟩ := withSender_keeps first packet
    have hpacket := hpackets packet hmem
    refine ⟨hlength ▸ hpacket.header, hheader 0 (by decide) ▸ hpacket.version, ?_⟩
    rw [hlength, ← hpacket.length, packetLen, packetLen, readU16, readU16, hheader 2 (by decide),
      hheader 3 (by decide)]

/-! ### Written reports -/

/-- A block as it reads back: of the cumulative loss the low 24 bits, as a signed number. -/
def ReceptionReport.readBack (report : ReceptionReport) : ReportBlock where
  ssrc := report.ssrc
  fractionLost := report.fractionLost
  cumulativeLost := .ofInt (Int.bmod report.cumulativeLost.toNat (2 ^ 24))
  highestSequence := report.extendedHighestSeq
  jitter := report.jitter
  lastSenderReport := report.lastSr
  delaySinceLastSr := report.delayLastSr

theorem toBe_add (high low value : ℕ) :
    toBe (high + low) value = toBe high (value / 256 ^ low) ++ toBe low value := by
  induction low generalizing value with
  | zero => simp [toBe]
  | succ low ih =>
    rw [← Nat.add_assoc, toBe, ih, toBe, List.append_assoc, Nat.div_div_eq_div_mul,
      Nat.pow_succ, Nat.mul_comm (256 ^ low)]

/-- The sign extension of 24 bits. -/
theorem signExtend {raw : UInt32} (hraw : raw.toNat < 2 ^ 24) :
    (if raw &&& 0x00800000 ≠ 0 then (raw ||| 0xFF000000).toInt32 else raw.toInt32) =
      Int32.ofInt (Int.bmod raw.toNat (2 ^ 24)) := by
  have hint (value : UInt32) : value.toInt32.toInt = Int.bmod value.toNat (2 ^ 32) :=
    BitVec.toInt_eq_toNat_bmod value.toBitVec
  have hbit : raw &&& 0x00800000 = 0 ↔ raw.toNat < 2 ^ 23 := by
    rw [← UInt32.toNat_inj, UInt32.toNat_and, show (0x00800000 : UInt32).toNat = 2 ^ 23 from rfl,
      Nat.and_two_pow, Nat.testBit_eq_decide_div_mod_eq]
    simp
    omega
  have hor : (raw ||| 0xFF000000).toNat = 2 ^ 24 * 0xFF + raw.toNat := by
    rw [UInt32.toNat_or, Nat.or_comm, Nat.two_pow_add_eq_or_of_lt hraw]
    rfl
  rw [← Int32.toInt_inj, Int32.toInt_ofInt]
  by_cases hlow : raw.toNat < 2 ^ 23
  · rw [if_neg (not_not.mpr (hbit.mpr hlow)), hint]
    simp only [Int.bmod_def, Int32.size]
    omega
  · rw [if_pos (hbit.not.mpr hlow), hint]
    simp only [Int.bmod_def, Int32.size]
    omega

theorem readCumulativeLost_octets (report : ReceptionReport) :
    readCumulativeLost report.octets = report.readBack.cumulativeLost := by
  have hlow : (report.cumulativeLost &&& 0x00FFFFFF).toNat =
      report.cumulativeLost.toNat % 2 ^ 24 := by
    rw [UInt32.toNat_and, show (0x00FFFFFF : UInt32).toNat = 2 ^ 24 - 1 from rfl,
      Nat.and_two_pow_sub_one_eq_mod]
  have hoctets : fromBe [0, octet report.octets 5, octet report.octets 6, octet report.octets 7] =
      fromBe (toBe 3 (report.cumulativeLost &&& 0x00FFFFFF).toNat) := by
    simp only [fromBe, List.foldl_cons]
    rfl
  have hraw : (UInt32.ofNat (fromBe
      [0, octet report.octets 5, octet report.octets 6, octet report.octets 7])).toNat =
        report.cumulativeLost.toNat % 2 ^ 24 := by
    rw [hoctets, fromBe_toBe, UInt32.toNat_ofNat']
    omega
  have hmod : Int.bmod (report.cumulativeLost.toNat % 2 ^ 24 : ℕ) (2 ^ 24) =
      Int.bmod report.cumulativeLost.toNat (2 ^ 24) := by
    simp only [Int.bmod_def]
    omega
  rw [readCumulativeLost, signExtend (hraw.trans_lt (Nat.mod_lt _ (by decide))), hraw, hmod]
  rfl

@[simp] theorem length_octets (report : ReceptionReport) : report.octets.length = 24 := by
  simp [ReceptionReport.octets]

theorem readU32_of_drop {bytes rest : Bytes} {position value : ℕ}
    (hdrop : bytes.drop position = toBe 4 value ++ rest) :
    readU32 bytes position = UInt32.ofNat value := by
  have hoctet (index : ℕ) : octet bytes (position + index) = octet (bytes.drop position) index := by
    simp [octet]
  have hread : readU32 bytes position = readU32 (bytes.drop position) 0 := by
    simp only [readU32, ← hoctet, Nat.add_zero]
  rw [hread, hdrop, readU32_toBe]

theorem field_of_drop {bytes rest : Bytes} {position : ℕ} {value : UInt32}
    (hdrop : bytes.drop position = toBe 4 value.toNat ++ rest) :
    readU32 bytes position = value := by
  rw [readU32_of_drop hdrop, UInt32.ofNat_toNat]

theorem parse_octets (report : ReceptionReport) :
    ReportBlock.parse report.octets = some report.readBack := by
  have hlength : ¬ report.octets.length < reportBlockLen := by simp [reportBlockLen]
  have hssrc : readU32 report.octets 0 = report.ssrc := field_of_drop rfl
  have hhighest : readU32 report.octets 8 = report.extendedHighestSeq := field_of_drop rfl
  have hjitter : readU32 report.octets 12 = report.jitter := field_of_drop rfl
  have hlast : readU32 report.octets 16 = report.lastSr := field_of_drop rfl
  have hdelay : readU32 report.octets 20 = report.delayLastSr := by
    refine @field_of_drop _ [] 20 _ ?_
    rfl
  rw [ReportBlock.parse, if_neg hlength, readCumulativeLost_octets, hssrc, hhighest, hjitter, hlast,
    hdelay]
  rfl

theorem readReportBlocks_octets (reports : List ReceptionReport) :
    readReportBlocks (reports.flatMap ReceptionReport.octets) reports.length =
      reports.map ReceptionReport.readBack := by
  induction reports with
  | nil => rfl
  | cons report reports ih =>
    have hlength : reportBlockLen = report.octets.length := (length_octets report).symm
    rw [List.flatMap_cons, List.length_cons, readReportBlocks, hlength, List.take_left,
      List.drop_left, parse_octets]
    rw [ih, List.map_cons]

theorem ntp_of_halves (ntpTimestamp : UInt64) :
    ((UInt32.ofNat (ntpTimestamp.toNat / 2 ^ 32)).toUInt64 <<< 32) |||
        (UInt32.ofNat ntpTimestamp.toNat).toUInt64 = ntpTimestamp := by
  have hbound := ntpTimestamp.toNat_lt
  rw [← UInt64.toNat_inj, UInt64.toNat_or, UInt64.toNat_shiftLeft]
  simp only [UInt32.toNat_toUInt64, UInt32.toNat_ofNat', Nat.shiftLeft_eq,
    show (32 : UInt64).toNat % 64 = 32 from rfl]
  have hhigh : ntpTimestamp.toNat / 2 ^ 32 % 2 ^ 32 * 2 ^ 32 % 2 ^ 64 =
      2 ^ 32 * (ntpTimestamp.toNat / 2 ^ 32) := by omega
  rw [hhigh, ← Nat.two_pow_add_eq_or_of_lt (Nat.mod_lt _ (by decide)), Nat.div_add_mod]

section Written

variable (ssrc : UInt32) (ntpTimestamp : UInt64) (rtpTimestamp packetCount octetCount : UInt32)
  (reports : List ReceptionReport)

/-- The octets of a written report after its first word, with the NTP timestamp in two words. -/
def bodyOctets : Bytes :=
  toBe 4 ssrc.toNat ++ (toBe 4 (ntpTimestamp.toNat / 2 ^ 32) ++ (toBe 4 ntpTimestamp.toNat ++
    (toBe 4 rtpTimestamp.toNat ++ (toBe 4 packetCount.toNat ++ (toBe 4 octetCount.toNat ++
      reports.flatMap ReceptionReport.octets)))))

theorem length_bodyOctets :
    (bodyOctets ssrc ntpTimestamp rtpTimestamp packetCount octetCount reports).length =
      24 + reports.length * 24 := by
  have hblocks : (reports.map fun report ↦ report.octets.length).sum = reports.length * 24 := by
    simp
  rw [bodyOctets]
  simp only [List.length_append, length_toBe, List.length_flatMap]
  omega

/-- A packet with the length of its body in words. -/
theorem isRtcp_of_words {first packetType : UInt8} {words : ℕ} {body : Bytes}
    (hversion : first >>> 6 = 2) (hwords : words < 2 ^ 16) (hbody : body.length = words * 4) :
    IsRtcp (first :: packetType :: (toBe 2 words ++ body)) := by
  have hlength : (first :: packetType :: (toBe 2 words ++ body)).length = (words + 1) * 4 := by
    simp only [List.length_cons, List.length_append, length_toBe]
    omega
  have hread : readU16 (first :: packetType :: (toBe 2 words ++ body)) 2 = UInt16.ofNat words :=
    readU16_toBe words body
  refine ⟨by omega, hversion, ?_⟩
  rw [packetLen, hread, UInt16.toNat_ofNat_of_lt' hwords, hlength]

/-- A written report reads as what was written. -/
theorem readPacket_written {first high low : UInt8}
    (hcount : (first &&& 0x1F).toNat = reports.length) :
    readPacket (first :: senderReportType :: high :: low ::
        bodyOctets ssrc ntpTimestamp rtpTimestamp packetCount octetCount reports) =
      .senderReport ⟨ssrc, ntpTimestamp, rtpTimestamp, packetCount, octetCount,
        reports.map ReceptionReport.readBack⟩ := by
  have hlength := length_bodyOctets ssrc ntpTimestamp rtpTimestamp packetCount octetCount reports
  obtain ⟨body, hbody, hssrc, hhigh, hlow, hrtp, hpackets, hoctets, hblocks⟩ : ∃ body,
      bodyOctets ssrc ntpTimestamp rtpTimestamp packetCount octetCount reports = body ∧
      readU32 body 0 = ssrc ∧ readU32 body 4 = UInt32.ofNat (ntpTimestamp.toNat / 2 ^ 32) ∧
      readU32 body 8 = UInt32.ofNat ntpTimestamp.toNat ∧ readU32 body 12 = rtpTimestamp ∧
      readU32 body 16 = packetCount ∧ readU32 body 20 = octetCount ∧
      body.drop 24 = reports.flatMap ReceptionReport.octets :=
    ⟨_, rfl, field_of_drop rfl, readU32_of_drop rfl, readU32_of_drop rfl, field_of_drop rfl,
      field_of_drop rfl, field_of_drop rfl, rfl⟩
  rw [hbody] at hlength ⊢
  have htype : octet (first :: senderReportType :: high :: low :: body) 1 = senderReportType ∧
      24 ≤ ((first :: senderReportType :: high :: low :: body).drop 4).length :=
    ⟨rfl, hlength ▸ Nat.le_add_right _ _⟩
  have hfirst : (octet (first :: senderReportType :: high :: low :: body) 0 &&& 0x1F).toNat =
      reports.length := hcount
  have hdrop : (first :: senderReportType :: high :: low :: body).drop 4 = body := rfl
  rw [readPacket, if_pos htype, hdrop, hfirst, hssrc, hhigh, hlow, ntp_of_halves, hrtp, hpackets,
    hoctets, hblocks, readReportBlocks_octets]

/-- A written sender report parses to what was written. Assumes: the buffer has room for the report
and its blocks. Of more than 31 blocks the first 31 are written, and of a cumulative loss its low 24
bits, which read back as a signed number. -/
theorem sender_report_round_trips {capacity : ℕ}
    (hcapacity : senderReportLen + min reports.length 31 * receptionReportLen ≤ capacity) :
    ∃ bytes, writeSenderReport ssrc ntpTimestamp rtpTimestamp packetCount octetCount reports
        capacity = some bytes ∧
      parseCompound bytes = .ok [.senderReport ⟨ssrc, ntpTimestamp, rtpTimestamp, packetCount,
        octetCount, (reports.take 31).map ReceptionReport.readBack⟩] := by
  obtain ⟨count, hcount⟩ : ∃ count, count = min reports.length 31 := ⟨_, rfl⟩
  have htake : reports.take (min reports.length 31) = reports.take 31 :=
    List.take_eq_take_iff.mpr (by omega)
  have hreports : (reports.take 31).length = count := by
    rw [List.length_take, hcount, Nat.min_comm]
  have hfirst : (0x80 ||| UInt8.ofNat count) >>> 6 = 2 ∧
      ((0x80 ||| UInt8.ofNat count) &&& 0x1F).toNat = count := by
    have hall : ∀ n < 32, (0x80 ||| UInt8.ofNat n) >>> 6 = 2 ∧
        ((0x80 ||| UInt8.ofNat n) &&& 0x1F).toNat = n := by decide
    exact hall count (by omega)
  have hntp (rest : Bytes) : toBe 8 ntpTimestamp.toNat ++ rest =
      toBe 4 (ntpTimestamp.toNat / 2 ^ 32) ++ (toBe 4 ntpTimestamp.toNat ++ rest) := by
    rw [← List.append_assoc, show (2 ^ 32 : ℕ) = 256 ^ 4 from rfl, ← toBe_add]
  rw [writeSenderReport, if_neg (Nat.not_lt.mpr hcapacity), htake, hntp, ← hcount]
  have hwords : (UInt16.ofNat ((senderReportLen + count * receptionReportLen) / 4 - 1)).toNat =
      6 + count * 6 := by
    rw [UInt16.toNat_ofNat', senderReportLen, receptionReportLen]
    omega
  refine ⟨_, rfl, ?_⟩
  have hpacket := @isRtcp_of_words _ senderReportType (6 + count * 6) (bodyOctets ssrc ntpTimestamp
    rtpTimestamp packetCount octetCount (reports.take 31)) hfirst.1 (by omega) (by
      rw [length_bodyOctets]
      omega)
  rw [hwords]
  refine (parseCompound_single hpacket).trans (congrArg (fun packet ↦ Except.ok [packet]) ?_)
  exact readPacket_written ssrc ntpTimestamp rtpTimestamp packetCount octetCount (reports.take 31)
    (hfirst.2.trans hreports.symm)

end Written

/-- A stream with losses. -/
def lossyStream (cumulativeLost : UInt32) : ReceptionReport where
  ssrc := 7
  fractionLost := 25
  cumulativeLost
  extendedHighestSeq := 90000
  jitter := 3
  lastSr := 11
  delayLastSr := 5

theorem sender_report_round_trips_lossy :
    senderReportLen + min [lossyStream 70000].length 31 * receptionReportLen ≤ 64 ∧
      ∃ bytes, writeSenderReport 1 2 3 4 5 [lossyStream 70000] 64 = some bytes ∧
        parseCompound bytes = .ok [.senderReport ⟨1, 2, 3, 4, 5,
          [⟨7, 25, 70000, 90000, 3, 11, 5⟩]⟩] := by
  have hblock : (lossyStream 70000).readBack = ⟨7, 25, 70000, 90000, 3, 11, 5⟩ := by
    decide +kernel
  rw [← hblock]
  exact ⟨by decide, sender_report_round_trips 1 2 3 4 5 [lossyStream 70000] (by decide)⟩

/-- A loss past the 24-bit range reads back as negative. -/
theorem cumulative_loss_wraps :
    ∃ bytes, writeSenderReport 1 2 3 4 5 [lossyStream 0x00800000] 64 = some bytes ∧
      parseCompound bytes ≠ .ok [.senderReport ⟨1, 2, 3, 4, 5,
        [⟨7, 25, 0x007FFFFF, 90000, 3, 11, 5⟩]⟩] := by
  refine ⟨_, rfl, ?_⟩
  rw [parseCompound_single ⟨by decide, by decide, by decide⟩]
  decide

end SiphonRtp.Media.Rtcp
