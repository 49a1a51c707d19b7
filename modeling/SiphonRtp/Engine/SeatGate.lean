import SiphonRtp.Engine.ReplyLatch
import SiphonRtp.Srtp.GcmContext
import SiphonRtp.Srtp.SecureLeg

/-!
# The ingress gate of a room seat

`admit` of `siphon-rtp-engine/src/seat_gate.rs`, the chain every datagram of a room seat passes: the
source filter, the pending key, the pending ICE pair, SRTP, and the reply latch. `admits_cases`
lists what a datagram can do. The settings of the gate come with each datagram, as the rooms build
them, and the state of a seat is what the chain updates.

`seat_guarded` is what the chain guards over any sequence of datagrams. The first RTP datagram past
the gates is latched, and from then on every other source has to carry its SSRC. Until then the
latch refuses nobody: RTCP that arrives before any RTP is admitted from every source the filter
passes, and only its source is not adopted (`rtcp_admitted_before_rtp`).
-/

set_option autoImplicit false

namespace SiphonRtp.Engine

open Machine Datapath Srtp

/-- The settings of a seat that the chain reads. -/
structure SeatGate where
  acceptedSource : SourceFilter
  /-- A DTLS seat that is not keyed yet. -/
  securePending : Bool
  /-- A full-ICE seat without a selected pair. -/
  icePending : Bool
  latch : Bool
deriving DecidableEq

/-- The state of a seat that the chain updates. -/
structure Seat where
  secure : Option SecureLeg
  reverseLatch : SymmetricLatch
  egressDestination : SocketAddr

/-- A seat before its first datagram. -/
def Seat.fresh (secure : Option SecureLeg) (egressDestination : SocketAddr) : Seat where
  secure
  reverseLatch := {}
  egressDestination

section Seat

variable (P : Primitives)

/-- The datagram in the clear: decrypted on a secure seat, as it is on a plain one. -/
def clearOf (secure : Option SecureLeg) (data : Bytes) :
    Except SrtpError Bytes × Option SecureLeg :=
  match secure with
  | none => (.ok data, none)
  | some leg => ((leg.unprotect P data).1.map (·.2), some (leg.unprotect P data).2)

/-- `admit` of `seat_gate.rs`. -/
def Seat.admits (seat : Seat) (input : SeatGate × RxPacket) : Except Ingress Bytes × Seat :=
  let gate := input.1
  let packet := input.2
  if gate.acceptedSource.accepts packet.source.ip = false then (.error .refused, seat)
  else if gate.securePending then (.error .refused, seat)
  else if gate.icePending then (.error .refused, seat)
  else
    match clearOf P seat.secure packet.data with
    | (.error _, secure) => (.error .refused, { seat with secure })
    | (.ok data, secure) =>
      if gate.latch then
        match seat.reverseLatch.admits packet.source (rtpMediaSsrc data) with
        | (.reject, reverseLatch) => (.error .refused, { seat with secure, reverseLatch })
        | (.accept (some destination), reverseLatch) =>
          (.ok data, { secure, reverseLatch, egressDestination := destination })
        | (.accept none, reverseLatch) => (.ok data, { seat with secure, reverseLatch })
      else (.ok data, { seat with secure })

/-! ### What a datagram can do -/

/-- A datagram that fails on a secure seat leaves its keys alone. -/
theorem clearOf_of_error {secure next : Option SecureLeg} {data : Bytes} {error : SrtpError}
    (hclear : clearOf P secure data = (.error error, next)) : next = secure := by
  cases secure with
  | none => exact nomatch hclear
  | some leg =>
    obtain ⟨hfailed, rfl⟩ := Prod.mk.inj hclear
    cases hresult : (leg.unprotect P data).1 with
    | error cause => rw [SecureLeg.unprotect_of_error P hresult]
    | ok plain =>
      rw [hresult] at hfailed
      exact nomatch hfailed

/-- The datagram is in the clear past the filter, the pending gates and SRTP. -/
structure Cleared (seat : Seat) (gate : SeatGate) (packet : RxPacket) (data : Bytes)
    (secure : Option SecureLeg) : Prop where
  source : gate.acceptedSource.accepts packet.source.ip = true
  keyed : gate.securePending = false
  selected : gate.icePending = false
  opened : clearOf P seat.secure packet.data = (.ok data, secure)

/-- A datagram that does not get past the filter, the pending gates and SRTP changes nothing. -/
theorem Seat.admits_of_not_cleared {seat : Seat} {gate : SeatGate} {packet : RxPacket}
    (hnot : ∀ data secure, ¬ Cleared P seat gate packet data secure) :
    seat.admits P (gate, packet) = (.error .refused, seat) := by
  cases hsource : gate.acceptedSource.accepts packet.source.ip with
  | false => simp only [admits, hsource, if_true]
  | true =>
    cases hkeyed : gate.securePending with
    | true =>
      simp only [admits, hsource, hkeyed]
      rfl
    | false =>
      cases hselected : gate.icePending with
      | true =>
        simp only [admits, hsource, hkeyed, hselected]
        rfl
      | false =>
        cases hclear : clearOf P seat.secure packet.data with
        | mk result secure =>
          cases result with
          | error error =>
            simp only [admits, hsource, hkeyed, hselected, hclear, clearOf_of_error P hclear]
            rfl
          | ok data => exact absurd ⟨hsource, hkeyed, hselected, hclear⟩ (hnot data secure)

/-- A datagram that gets that far is decided by the latch, where there is one. -/
theorem Seat.admits_of_cleared {seat : Seat} {gate : SeatGate} {packet : RxPacket} {data : Bytes}
    {secure : Option SecureLeg} (hcleared : Cleared P seat gate packet data secure) :
    (gate.latch = false → seat.admits P (gate, packet) = (.ok data, { seat with secure })) ∧
      (gate.latch = true → ∀ reverseLatch,
        (seat.reverseLatch.admits packet.source (rtpMediaSsrc data) = (.reject, reverseLatch) →
          seat.admits P (gate, packet) = (.error .refused, { seat with secure, reverseLatch })) ∧
        ∀ reply, seat.reverseLatch.admits packet.source (rtpMediaSsrc data) =
            (.accept reply, reverseLatch) →
          seat.admits P (gate, packet) = (.ok data,
            { secure, reverseLatch, egressDestination := reply.getD seat.egressDestination })) := by
  obtain ⟨hsource, hkeyed, hselected, hclear⟩ := hcleared
  refine ⟨fun hlatch ↦ ?_, fun hlatch reverseLatch ↦ ⟨fun hreject ↦ ?_, fun reply haccept ↦ ?_⟩⟩
  · simp only [admits, hsource, hkeyed, hselected, hclear, hlatch]
    rfl
  · simp only [admits, hsource, hkeyed, hselected, hclear, hlatch, hreject]
    rfl
  · cases reply with
    | none =>
      simp only [admits, hsource, hkeyed, hselected, hclear, hlatch, haccept]
      rfl
    | some destination =>
      simp only [admits, hsource, hkeyed, hselected, hclear, hlatch, haccept]
      rfl

/-- What becomes of a datagram that got to the latch, or past it where there is none. -/
inductive Latched (seat : Seat) (gate : SeatGate) (packet : RxPacket) (data : Bytes)
    (secure : Option SecureLeg) : Except Ingress Bytes × Seat → Prop
  /-- The seat does not latch. -/
  | unlatched (hlatch : gate.latch = false) : Latched seat gate packet data secure
      (.ok data, { seat with secure })
  /-- Another source is latched, and the datagram does not carry its SSRC. -/
  | refused (hlatch : gate.latch = true) : Latched seat gate packet data secure
      (.error .refused, { seat with secure })
  /-- Nothing is latched, and the datagram carries no media SSRC. -/
  | early (hlatch : gate.latch = true) (hempty : seat.reverseLatch.latched = none)
      (hssrc : rtpMediaSsrc data = none) : Latched seat gate packet data secure
      (.ok data, { seat with secure })
  /-- The source is the latched one. -/
  | same (hlatch : gate.latch = true) (hsame : seat.reverseLatch.latched = some packet.source) :
      Latched seat gate packet data secure
      (.ok data, { seat with secure, egressDestination := packet.source })
  /-- The datagram carries the SSRC that is latched, or the first one. -/
  | learned (hlatch : gate.latch = true) {ssrc : UInt32} (hssrc : rtpMediaSsrc data = some ssrc)
      (hknown : seat.reverseLatch.latched = none ∨ seat.reverseLatch.ssrc = some ssrc) :
      Latched seat gate packet data secure
      (.ok data,
        { secure, reverseLatch := { latch := some { source := packet.source, ssrc := some ssrc } },
          egressDestination := packet.source })

/-- What a datagram can do to a seat. Assumes: the latch is as the chain leaves it. -/
theorem Seat.admits_cases {seat : Seat} (hpinned : seat.reverseLatch.Pinned) (gate : SeatGate)
    (packet : RxPacket) :
    seat.admits P (gate, packet) = (.error .refused, seat) ∨
      ∃ data secure, Cleared P seat gate packet data secure ∧
        Latched seat gate packet data secure (seat.admits P (gate, packet)) := by
  by_cases hcleared : ∃ data secure, Cleared P seat gate packet data secure
  swap
  · refine Or.inl (admits_of_not_cleared P fun data secure hcleared' ↦ hcleared ?_)
    exact ⟨data, secure, hcleared'⟩
  obtain ⟨data, secure, hcleared⟩ := hcleared
  refine Or.inr ⟨data, secure, hcleared, ?_⟩
  obtain ⟨hopen, hlatching⟩ := admits_of_cleared P hcleared
  cases hlatch : gate.latch with
  | false =>
    rw [hopen hlatch]
    exact .unlatched hlatch
  | true =>
    rcases SymmetricLatch.admits_cases hpinned packet.source (rtpMediaSsrc data) with
      ⟨_, -, -, -, heq⟩ | ⟨stored, hstored, hsame, heq⟩ | ⟨hempty, hssrc, heq⟩ |
      ⟨ssrc, hssrc, hknown, heq⟩
    · rw [(hlatching hlatch _).1 heq]
      exact .refused hlatch
    · rw [(hlatching hlatch _).2 _ heq]
      refine .same hlatch ?_
      rw [SymmetricLatch.latched, hstored, Option.map_some, hsame]
    · rw [(hlatching hlatch _).2 _ heq]
      refine .early hlatch ?_ hssrc
      rw [SymmetricLatch.latched, hempty]
      rfl
    · rw [(hlatching hlatch _).2 _ heq]
      refine .learned hlatch hssrc ?_
      rcases hknown with hempty | ⟨stored, hstored, -, hsame⟩
      · rw [SymmetricLatch.latched, hempty]
        exact Or.inl rfl
      · rw [SymmetricLatch.ssrc, hstored, Option.bind_some, hsame]
        exact Or.inr rfl

variable {P}

/-- An admitted datagram on a secure seat was authenticated. -/
theorem Cleared.authenticated {seat : Seat} {gate : SeatGate} {packet : RxPacket} {data : Bytes}
    {secure : Option SecureLeg} (hcleared : Cleared P seat gate packet data secure)
    {leg : SecureLeg} (hleg : seat.secure = some leg) :
    ∃ kind, (leg.unprotect P packet.data).1 = .ok (kind, data) := by
  have hopened := congrArg Prod.fst hcleared.opened
  rw [hleg] at hopened
  change (leg.unprotect P packet.data).1.map (·.2) = .ok data at hopened
  cases hresult : (leg.unprotect P packet.data).1 with
  | error error =>
    rw [hresult] at hopened
    exact nomatch hopened
  | ok plain =>
    rw [hresult] at hopened
    obtain rfl : plain.2 = data := Except.ok.inj hopened
    exact ⟨plain.1, rfl⟩

/-- What an admitted datagram went past: the latch takes it without an SSRC while nothing is
latched, from the latched source, or with the SSRC that it latches its source for. -/
theorem Seat.admitted_step {seat : Seat} (hpinned : seat.reverseLatch.Pinned) {gate : SeatGate}
    {packet : RxPacket} {data : Bytes} (hadmits : (seat.admits P (gate, packet)).1 = .ok data) :
    ∃ secure, Cleared P seat gate packet data secure ∧
      (gate.latch = true →
        (rtpMediaSsrc data = none ∧ seat.reverseLatch.latched = none) ∨
        seat.reverseLatch.latched = some packet.source ∨
        ∃ ssrc, rtpMediaSsrc data = some ssrc ∧
          (seat.admits P (gate, packet)).2.reverseLatch.ssrc = some ssrc ∧
          (seat.admits P (gate, packet)).2.reverseLatch.latched = some packet.source) ∧
      (rtpMediaSsrc data = none → seat.reverseLatch.ssrc = none →
        (seat.admits P (gate, packet)).2.egressDestination = seat.egressDestination) := by
  rcases seat.admits_cases P hpinned gate packet with heq | ⟨clear, secure, hcleared, hlatched⟩
  · rw [heq] at hadmits
    exact nomatch hadmits
  · generalize seat.admits P (gate, packet) = outcome at hlatched hadmits ⊢
    cases hlatched with
    | unlatched hlatch =>
      obtain rfl := Except.ok.inj hadmits
      exact ⟨secure, hcleared, fun hon ↦ (nomatch hlatch.symm.trans hon), fun _ _ ↦ rfl⟩
    | refused => exact nomatch hadmits
    | early _ hempty hssrc =>
      obtain rfl := Except.ok.inj hadmits
      exact ⟨secure, hcleared, fun _ ↦ Or.inl ⟨hssrc, hempty⟩, fun _ _ ↦ rfl⟩
    | same _ hsame =>
      obtain rfl := Except.ok.inj hadmits
      refine ⟨secure, hcleared, fun _ ↦ Or.inr (Or.inl hsame), fun _ hnone ↦ ?_⟩
      -- what is stored carries an SSRC
      obtain ⟨stored, hstored, -⟩ := Option.map_eq_some_iff.mp hsame
      have hsome := hpinned stored hstored
      rw [SymmetricLatch.ssrc, hstored, Option.bind_some] at hnone
      rw [hnone] at hsome
      exact nomatch hsome
    | learned _ hssrc =>
      obtain rfl := Except.ok.inj hadmits
      exact ⟨secure, hcleared, fun _ ↦ Or.inr (Or.inr ⟨_, hssrc, rfl, rfl⟩),
        fun hnone ↦ (nomatch hssrc.symm.trans hnone)⟩

/-- The reply address moves to the source of an admitted datagram only. -/
theorem Seat.reply_step {seat : Seat} (hpinned : seat.reverseLatch.Pinned) (gate : SeatGate)
    (packet : RxPacket) :
    (seat.admits P (gate, packet)).2.egressDestination = seat.egressDestination ∨
      (∃ data, (seat.admits P (gate, packet)).1 = .ok data) ∧
        (seat.admits P (gate, packet)).2.egressDestination = packet.source := by
  rcases seat.admits_cases P hpinned gate packet with heq | ⟨data, secure, -, hlatched⟩
  · rw [heq]
    exact Or.inl rfl
  · generalize seat.admits P (gate, packet) = outcome at hlatched ⊢
    cases hlatched with
    | unlatched => exact Or.inl rfl
    | refused => exact Or.inl rfl
    | early => exact Or.inl rfl
    | same => exact Or.inr ⟨⟨data, rfl⟩, rfl⟩
    | learned => exact Or.inr ⟨⟨data, rfl⟩, rfl⟩

/-! ### A seat over time -/

variable (P)

/-- The latch of a seat keeps the SSRC it has. -/
def KeepsSsrc (before after : Seat) : Prop :=
  before.reverseLatch.Pinned → after.reverseLatch.Pinned ∧
    ∀ ssrc, before.reverseLatch.ssrc = some ssrc → after.reverseLatch.ssrc = some ssrc

theorem keepsSsrc_admits (seat : Seat) (input : SeatGate × RxPacket) :
    KeepsSsrc seat (seat.admits P input).2 := by
  obtain ⟨gate, packet⟩ := input
  intro hpinned
  rcases seat.admits_cases P hpinned gate packet with heq | ⟨data, secure, -, hlatched⟩
  · rw [heq]
    exact ⟨hpinned, fun _ hssrc ↦ hssrc⟩
  · generalize seat.admits P (gate, packet) = outcome at hlatched ⊢
    cases hlatched with
    | unlatched => exact ⟨hpinned, fun _ hssrc ↦ hssrc⟩
    | refused => exact ⟨hpinned, fun _ hssrc ↦ hssrc⟩
    | early => exact ⟨hpinned, fun _ hssrc ↦ hssrc⟩
    | same => exact ⟨hpinned, fun _ hssrc ↦ hssrc⟩
    | learned _ _ hknown =>
      refine ⟨fun stored hstored ↦ ?_, fun ssrc hssrc ↦ ?_⟩
      · rw [← Option.some.inj hstored]
        rfl
      · rcases hknown with hempty | hsame
        · rw [SymmetricLatch.ssrc, Option.map_eq_none_iff.mp hempty] at hssrc
          exact nomatch hssrc
        · exact hsame.symm.trans hssrc

variable (secure : Option SecureLeg) (destination : SocketAddr)
  (inputs : List (SeatGate × RxPacket))

/-- The seat before position `k` of a run that starts with nothing latched. -/
def seatAt (k : ℕ) : Seat := final (Seat.admits P) (Seat.fresh secure destination) (inputs.take k)

theorem keepsSsrc_seatAt {i j : ℕ} (hij : i ≤ j) :
    KeepsSsrc (seatAt P secure destination inputs i) (seatAt P secure destination inputs j) := by
  refine final_take_rel KeepsSsrc (fun _ hpinned ↦ ⟨hpinned, fun _ hssrc ↦ hssrc⟩) ?_
    (fun seat input ↦ keepsSsrc_admits P seat input) (Seat.fresh secure destination) inputs hij
  intro first second third hfirst hsecond hpinned
  obtain ⟨hmiddle, hkeeps⟩ := hfirst hpinned
  obtain ⟨hlast, hkeeps'⟩ := hsecond hmiddle
  exact ⟨hlast, fun ssrc hssrc ↦ hkeeps' ssrc (hkeeps ssrc hssrc)⟩

theorem pinned_seatAt (k : ℕ) : (seatAt P secure destination inputs k).reverseLatch.Pinned :=
  (keepsSsrc_seatAt P secure destination inputs (Nat.zero_le k)
    SymmetricLatch.pinned_default).1

/-- What the chain guards over a run of a seat. -/
structure SeatGuarded : Prop where
  /-- A datagram is admitted only past the filter, with nothing pending, authenticated on a secure
  seat, and by the latch: without an SSRC while nothing is latched, from the latched source, or as
  RTP, whose source and SSRC are then the latched ones. -/
  admitted : ∀ k gate packet data, inputs[k]? = some (gate, packet) →
    ((seatAt P secure destination inputs k).admits P (gate, packet)).1 = .ok data →
      gate.acceptedSource.accepts packet.source.ip = true ∧ gate.securePending = false ∧
      gate.icePending = false ∧
      (∀ leg, (seatAt P secure destination inputs k).secure = some leg →
        ∃ kind, (leg.unprotect P packet.data).1 = .ok (kind, data)) ∧
      (gate.latch = true →
        (rtpMediaSsrc data = none ∧
          (seatAt P secure destination inputs k).reverseLatch.latched = none) ∨
        (seatAt P secure destination inputs k).reverseLatch.latched = some packet.source ∨
        ∃ ssrc, rtpMediaSsrc data = some ssrc ∧
          (seatAt P secure destination inputs (k + 1)).reverseLatch.ssrc = some ssrc ∧
          (seatAt P secure destination inputs (k + 1)).reverseLatch.latched = some packet.source)
  /-- The SSRC that is latched first stays. -/
  first : ∀ i j ssrc, i ≤ j → (seatAt P secure destination inputs i).reverseLatch.ssrc = some ssrc →
    (seatAt P secure destination inputs j).reverseLatch.ssrc = some ssrc
  /-- The reply address stays, or becomes the source of the datagram that is admitted. -/
  reply : ∀ k gate packet, inputs[k]? = some (gate, packet) →
    (seatAt P secure destination inputs (k + 1)).egressDestination =
        (seatAt P secure destination inputs k).egressDestination ∨
      (∃ data, ((seatAt P secure destination inputs k).admits P (gate, packet)).1 = .ok data) ∧
        (seatAt P secure destination inputs (k + 1)).egressDestination = packet.source
  /-- Nothing without a media SSRC moves it before an SSRC is latched. -/
  early : ∀ k gate packet data, inputs[k]? = some (gate, packet) →
    ((seatAt P secure destination inputs k).admits P (gate, packet)).1 = .ok data →
    rtpMediaSsrc data = none → (seatAt P secure destination inputs k).reverseLatch.ssrc = none →
      (seatAt P secure destination inputs (k + 1)).egressDestination =
        (seatAt P secure destination inputs k).egressDestination

/-- The reply address of a seat cannot be stolen. Over any datagrams and settings of a seat that
starts with nothing latched, the chain guards who is admitted and where the reply goes. A latch for
streams without an SSRC never moves from the source it learned. -/
theorem seat_guarded (sources : List SocketAddr) :
    SeatGuarded P secure destination inputs ∧
      ∀ (i j : ℕ) (learned : SocketAddr), i ≤ j →
        (final OpaqueLatch.admits {} (sources.take i)).latched = some learned →
          (final OpaqueLatch.admits {} (sources.take j)).latched = some learned := by
  have hnext : ∀ k gate packet, inputs[k]? = some (gate, packet) →
      seatAt P secure destination inputs (k + 1) =
        ((seatAt P secure destination inputs k).admits P (gate, packet)).2 :=
    fun k gate packet hinput ↦ final_take_succ (Seat.admits P) hinput _
  refine ⟨⟨?_, ?_, ?_, ?_⟩, ?_⟩
  · intro k gate packet data hinput hadmits
    rw [hnext k gate packet hinput]
    obtain ⟨_, hcleared, hlatch, -⟩ :=
      Seat.admitted_step (pinned_seatAt P secure destination inputs k) hadmits
    exact ⟨hcleared.source, hcleared.keyed, hcleared.selected,
      fun _ hleg ↦ hcleared.authenticated hleg, hlatch⟩
  · intro i j ssrc hij hssrc
    exact (keepsSsrc_seatAt P secure destination inputs hij
      (pinned_seatAt P secure destination inputs i)).2 ssrc hssrc
  · intro k gate packet hinput
    rw [hnext k gate packet hinput]
    exact Seat.reply_step (pinned_seatAt P secure destination inputs k) gate packet
  · intro k gate packet data hinput hadmits hssrc hlatch
    rw [hnext k gate packet hinput]
    obtain ⟨_, -, -, hearly⟩ :=
      Seat.admitted_step (pinned_seatAt P secure destination inputs k) hadmits
    exact hearly hssrc hlatch
  · intro i j learned hij hlearned
    exact final_take_rel
      (fun before after : OpaqueLatch ↦ ∀ source, before.latched = some source →
        after.latched = some source)
      (fun _ _ hsource ↦ hsource)
      (fun hfirst hsecond source hsource ↦ hsecond source (hfirst source hsource))
      (fun _ input _ hsource ↦ OpaqueLatch.latched_admits hsource input) {} sources hij learned
      hlearned

end Seat

/-- A seat that latches, with no filter on its sources and nothing pending. -/
def latchingGate : SeatGate where
  acceptedSource := .any
  securePending := false
  icePending := false
  latch := true

/-- An RTCP receiver report from somewhere. -/
def strayReport : RxPacket where
  endpoint := 1
  source := .v4 0x0A000063 9999
  arrival := 0
  data := [0x80, 0xC9, 0, 1, 0, 0, 0, 9]

/-- RTCP before any RTP is admitted, though nothing is latched, it has no media SSRC, and nothing is
latched after it. -/
theorem rtcp_admitted_before_rtp :
    let seat := Seat.fresh none (.v4 0x0A000001 4000)
    (seat.admits transparent (latchingGate, strayReport)).1.toOption = some strayReport.data ∧
      seat.reverseLatch.latched = none ∧ rtpMediaSsrc strayReport.data = none ∧
      (seat.admits transparent (latchingGate, strayReport)).2.reverseLatch.latched = none := by
  decide

end SiphonRtp.Engine
