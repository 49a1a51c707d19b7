import SiphonRtp.Machine.Runs
import SiphonRtp.Srtp.Rollover

/-!
# The receive anchor and the replay window

A receiver keeps two records of how far a stream has come: the rollover anchor of
`StreamState.indexFor` and the top of the replay window. `InStep` says that they agree. A step of
`link`, one packet protected by the sender and handed to the receiver, keeps them in step as long as
the packet does not leave the index space (`StreamState.LeavesIndexSpace`), and then no packet that
moves the anchor is refused as a replay (`anchor_in_step`).

Outside that condition they part for good. With the rollover counter at zero, a packet that reads as
one from before the previous wrap is guessed at an index near `2⁴⁸`; it authenticates, the window
jumps there, and the anchor stays where it was (`anchor_left_behind`).
-/

set_option autoImplicit false

namespace SiphonRtp.Srtp

open Machine

/-! ### The two records of one stream -/

namespace StreamState

variable {state : StreamState} {seq : UInt16}

/-- The highest index of the replay window is that of the rollover anchor, and a stream without an
anchor has not rolled over. -/
structure InStep (state : StreamState) : Prop where
  highest : state.replay.highest = state.anchorIndex
  fresh : state.highestSeq = none → state.roc = 0

theorem InStep.seen_top {highest : UInt16} (hstep : state.InStep)
    (hhighest : state.highestSeq = some highest) :
    state.replay.seen = true ∧ state.replay.top = packetIndex state.roc highest := by
  have htop := hstep.highest
  simp only [anchorIndex, hhighest, Option.map_some, ReplayWindow.highest] at htop
  split_ifs at htop with hseen
  exact ⟨hseen, Option.some.inj htop⟩

theorem InStep.not_seen (hstep : state.InStep) (hfresh : state.highestSeq = none) :
    state.replay.seen = false := by
  have htop := hstep.highest
  simp only [anchorIndex, hfresh, Option.map_none, ReplayWindow.highest] at htop
  split_ifs at htop with hseen
  simpa using hseen

/-- Assumes: the records agree and the packet stays inside the index space. Accepting it moves both
or neither. -/
theorem InStep.accepted (hstep : state.InStep) (hstays : ¬ state.LeavesIndexSpace seq) :
    (state.accepted seq).InStep ∧ (state.accepted seq).highestSeq ≠ none := by
  rcases hhighest : state.highestSeq with _ | highest
  · have hwindow := ReplayWindow.record_of_not_seen (hstep.not_seen hhighest) seq.toNat
    simp only [StreamState.accepted, indexFor_of_none hhighest, hwindow]
    refine ⟨⟨?_, fun hnone ↦ absurd hnone (Option.some_ne_none _)⟩, Option.some_ne_none _⟩
    simp [ReplayWindow.highest, ReplayWindow.anchor, anchorIndex, packetIndex_eq,
      hstep.fresh hhighest]
  · obtain ⟨hseen, htop⟩ := hstep.seen_top hhighest
    have hindex : (state.indexFor seq).1.1 = packetIndex (state.indexFor seq).1.2 seq :=
      (indexFor_cases seq hhighest).1
    rcases indexFor_of_stays hhighest hstays with ⟨hnewer, hmoves⟩ | ⟨holder, hrests⟩
    · rw [← htop] at hnewer
      simp only [StreamState.accepted, hmoves]
      refine ⟨⟨?_, fun hnone ↦ absurd hnone (Option.some_ne_none _)⟩, Option.some_ne_none _⟩
      simp only [ReplayWindow.highest, ReplayWindow.seen_record, ↓reduceIte, anchorIndex,
        Option.map_some, ReplayWindow.top_record_of_newer hseen hnewer]
      rw [hindex]
    · rw [← htop] at holder
      simp only [StreamState.accepted, hrests]
      refine ⟨⟨?_, fun hnone ↦ by simp [hhighest] at hnone⟩, by simp [hhighest]⟩
      simp only [ReplayWindow.highest, ReplayWindow.seen_record, ↓reduceIte, anchorIndex,
        hhighest, Option.map_some, ReplayWindow.top_record_of_older hseen holder, htop]

/-- Assumes: as in `InStep.accepted`. A packet that moves the anchor is above the window. -/
theorem InStep.not_isReplay (hstep : state.InStep) (hstays : ¬ state.LeavesIndexSpace seq)
    (hadvances : state.Advances seq) :
    state.replay.isReplay (state.indexFor seq).1.1 = false := by
  rw [Bool.eq_false_iff]
  intro hreplay
  obtain ⟨hseen, hle, -⟩ := ReplayWindow.isReplay_iff.mp hreplay
  rcases hhighest : state.highestSeq with _ | highest
  · rw [hstep.not_seen hhighest] at hseen
    exact Bool.false_ne_true hseen
  · obtain ⟨-, htop⟩ := hstep.seen_top hhighest
    rcases indexFor_of_stays hhighest hstays with ⟨hnewer, -⟩ | ⟨-, hrests⟩
    · omega
    · exact hadvances hrests

end StreamState

/-! ### One packet over the link -/

section Link

variable (P : Primitives)

/-- One packet over a link: the sender protects it and the receiver unprotects what the sender
emitted. The result is the receiver's, or the sender's error where it emitted nothing. -/
def link (ends : SrtpContext × SrtpContext) (rtp : Bytes) :
    Except SrtpError Bytes × (SrtpContext × SrtpContext) :=
  match ends.1.protect P rtp with
  | (.error error, sender) => (.error error, (sender, ends.2))
  | (.ok srtp, sender) =>
    let (received, receiver) := ends.2.unprotect P srtp
    (received, (sender, receiver))

variable {ssrc : UInt32} {headerLen : ℕ} {seq : UInt16} {rtp : Bytes}
  {ends : SrtpContext × SrtpContext}

/-- The receiving end of a link step: the packet is refused and the stream left alone, or it is
accepted. -/
theorem link_cases (hkey : ends.1.SameKey ends.2)
    (hparse : parseRtpHeader rtp = .ok (headerLen, ssrc, seq)) :
    (link P ends rtp).2.1.SameKey (link P ends rtp).2.2 ∧
      (((link P ends rtp).1 = .error .replayed ∧ (link P ends rtp).2.2 = ends.2 ∧
          (ends.2.stream ssrc).replay.isReplay ((ends.2.stream ssrc).indexFor seq).1.1 = true) ∨
        ((link P ends rtp).1 = .error .authFailed ∧ (link P ends rtp).2.2 = ends.2) ∨
        ∃ plain, (link P ends rtp).1 = .ok plain ∧
          (link P ends rtp).2.2.stream ssrc = (ends.2.stream ssrc).accepted seq) := by
  have hsender := SrtpContext.SameKey.setStream ends.1 ssrc ((ends.1.stream ssrc).indexFor seq).2
  simp only [link, SrtpContext.protect_eq P hparse, SrtpContext.unprotect_sealed P hkey hparse,
    SrtpContext.openPortion]
  split_ifs with hreplay htag
  · exact ⟨hsender.trans hkey, Or.inl ⟨rfl, rfl, hreplay⟩⟩
  · exact ⟨hsender.trans hkey, Or.inr (Or.inl ⟨rfl, rfl⟩)⟩
  · refine ⟨(hsender.trans hkey).trans (SrtpContext.SameKey.setStream _ _ _).symm, ?_⟩
    exact Or.inr (Or.inr ⟨_, rfl, SrtpContext.stream_setStream_self _ _ _⟩)

/-- Two ends under one key that guess the same index deliver the packet, unless the window refuses
it. -/
theorem link_of_guess (hkey : ends.1.SameKey ends.2)
    (hparse : parseRtpHeader rtp = .ok (headerLen, ssrc, seq))
    (hguess : ((ends.2.stream ssrc).indexFor seq).1 = ((ends.1.stream ssrc).indexFor seq).1) :
    link P ends rtp =
      if (ends.2.stream ssrc).replay.isReplay ((ends.1.stream ssrc).indexFor seq).1.1 then
        (.error .replayed,
          (ends.1.setStream ssrc ((ends.1.stream ssrc).indexFor seq).2, ends.2))
      else
        (.ok rtp, (ends.1.setStream ssrc ((ends.1.stream ssrc).indexFor seq).2,
          ends.2.setStream ssrc ((ends.2.stream ssrc).accepted seq))) := by
  simp only [link, SrtpContext.protect_eq P hparse,
    SrtpContext.unprotect_sealed_of_guess P hkey hparse hguess]
  split_ifs
  · rfl
  · rfl

variable (ends) in
/-- `link_of_guess` for a packet the window does not refuse, as facts about the next ends. -/
theorem link_delivers (hkey : ends.1.SameKey ends.2)
    (hparse : parseRtpHeader rtp = .ok (headerLen, ssrc, seq))
    {sending receiving : StreamState} (hsending : ends.1.stream ssrc = sending)
    (hreceiving : ends.2.stream ssrc = receiving)
    (hguess : (receiving.indexFor seq).1 = (sending.indexFor seq).1)
    (hfresh : receiving.replay.isReplay (sending.indexFor seq).1.1 = false) :
    (link P ends rtp).1 = .ok rtp ∧
      (link P ends rtp).2.1.SameKey (link P ends rtp).2.2 ∧
      (link P ends rtp).2.1.stream ssrc = (sending.indexFor seq).2 ∧
      (link P ends rtp).2.2.stream ssrc = receiving.accepted seq := by
  subst hsending hreceiving
  obtain ⟨hnext, -⟩ := link_cases P hkey hparse
  rw [link_of_guess P hkey hparse hguess, hfresh] at hnext ⊢
  exact ⟨rfl, hnext, SrtpContext.stream_setStream_self _ _ _,
    SrtpContext.stream_setStream_self _ _ _⟩

end Link

/-! ### Runs of the link -/

section Runs

variable (P : Primitives)

/-- The two ends hold one key, and the receiver's records of the SSRC agree. -/
def LinkInStep (ssrc : UInt32) (ends : SrtpContext × SrtpContext) : Prop :=
  ends.1.SameKey ends.2 ∧ (ends.2.stream ssrc).InStep

/-- Assumes: the packet stays inside the receiver's index space. -/
theorem linkInStep_link {ssrc : UInt32} {ends : SrtpContext × SrtpContext} {rtp : Bytes}
    {headerLen : ℕ} {seq : UInt16} (hends : LinkInStep ssrc ends)
    (hparse : parseRtpHeader rtp = .ok (headerLen, ssrc, seq))
    (hstays : ¬ (ends.2.stream ssrc).LeavesIndexSpace seq) :
    LinkInStep ssrc (link P ends rtp).2 := by
  obtain ⟨hkey, hin⟩ := hends
  obtain ⟨hnext, hcases⟩ := link_cases P hkey hparse
  refine ⟨hnext, ?_⟩
  rcases hcases with ⟨-, hleft, -⟩ | ⟨-, hleft⟩ | ⟨-, -, haccepted⟩
  · rwa [hleft]
  · rwa [hleft]
  · rw [haccepted]
    exact (hin.accepted hstays).1

theorem final_take_linkInStep {ssrc : UInt32} {ends : SrtpContext × SrtpContext}
    {packets : List Bytes} (hends : LinkInStep ssrc ends)
    (hssrc : ∀ rtp ∈ packets, ∃ headerLen seq, parseRtpHeader rtp = .ok (headerLen, ssrc, seq))
    (hstays : ∀ k rtp headerLen seq, packets[k]? = some rtp →
      parseRtpHeader rtp = .ok (headerLen, ssrc, seq) →
        ¬ ((final (link P) ends (packets.take k)).2.stream ssrc).LeavesIndexSpace seq)
    {k : ℕ} (hk : k ≤ packets.length) :
    LinkInStep ssrc (final (link P) ends (packets.take k)) := by
  refine final_take_induction (fun _ ↦ LinkInStep ssrc) hends (fun j rtp hrtp hin ↦ ?_) hk
  obtain ⟨headerLen, seq, hparse⟩ := hssrc rtp (List.mem_of_getElem? hrtp)
  exact linkInStep_link P hin hparse (hstays j rtp headerLen seq hrtp hparse)

/-- The receive anchor and the replay window stay in step. Assumes: the two ends hold one key, the
receiver's records of the SSRC agree at the start, as in a fresh receiver, and every packet of the
run is one of the SSRC that stays inside the receiver's index space at its turn. After an accepted
packet the top of the window is the anchor's index, and no packet that moves the anchor is reported
as replayed. -/
theorem anchor_in_step {sender receiver : SrtpContext} (hkey : sender.SameKey receiver)
    {ssrc : UInt32} (hstart : (receiver.stream ssrc).InStep) {packets : List Bytes}
    (hssrc : ∀ rtp ∈ packets, ∃ headerLen seq, parseRtpHeader rtp = .ok (headerLen, ssrc, seq))
    (hstays : ∀ k rtp headerLen seq, packets[k]? = some rtp →
      parseRtpHeader rtp = .ok (headerLen, ssrc, seq) →
        ¬ ((final (link P) (sender, receiver) (packets.take k)).2.stream ssrc).LeavesIndexSpace seq)
    {k : ℕ} {rtp : Bytes} {headerLen : ℕ} {seq : UInt16} (hrtp : packets[k]? = some rtp)
    (hparse : parseRtpHeader rtp = .ok (headerLen, ssrc, seq)) :
    let before := (final (link P) (sender, receiver) (packets.take k)).2.stream ssrc
    let after := (final (link P) (sender, receiver) (packets.take (k + 1))).2.stream ssrc
    let result := (outputs (link P) (sender, receiver) packets)[k]?
    ((∃ plain, result = some (.ok plain)) →
        ∃ highest, after.highestSeq = some highest ∧ after.replay.seen = true ∧
          after.replay.top = after.roc.toNat * 2 ^ 16 + highest.toNat) ∧
      (before.Advances seq → result ≠ some (.error .replayed)) := by
  have hk : k < packets.length := (List.getElem?_eq_some_iff.mp hrtp).1
  obtain ⟨hsame, hin⟩ := final_take_linkInStep P ⟨hkey, hstart⟩ hssrc hstays hk.le
  have hinside := hstays k rtp headerLen seq hrtp hparse
  rw [getElem?_outputs_of_eq _ hrtp, final_take_succ _ hrtp]
  obtain ⟨-, hcases⟩ := link_cases P hsame hparse
  constructor
  · rintro ⟨plain, hplain⟩
    rcases hcases with ⟨hresult, -⟩ | ⟨hresult, -⟩ | ⟨-, -, haccepted⟩
    · simp [hresult] at hplain
    · simp [hresult] at hplain
    · obtain ⟨hagree, hanchored⟩ := hin.accepted hinside
      obtain ⟨highest, hhighest⟩ := Option.ne_none_iff_exists'.mp hanchored
      obtain ⟨hseen, htop⟩ := hagree.seen_top hhighest
      rw [haccepted]
      exact ⟨highest, hhighest, hseen, by rw [htop, packetIndex_eq]⟩
  · intro hadvances hreplayed
    have hfresh := hin.not_isReplay hinside hadvances
    rcases hcases with ⟨-, -, hreplay⟩ | ⟨hresult, -⟩ | ⟨plain, hresult, -⟩
    · simp [hfresh] at hreplay
    · simp [hresult] at hreplayed
    · simp [hresult] at hreplayed

end Runs

/-! ### A wrap, and a packet from before the first one -/

/-- A packet across the first wrap, between two ends resumed at the last sequence number before
it. -/
theorem anchor_in_step_across_wrap :
    parseRtpHeader (bareRtp 0) = .ok (12, 1, 0) ∧
      ∀ (P : Primitives) (material : SrtpKeyMaterial),
        let resumed := (SrtpContext.fromKeyMaterial P material).seedStream ⟨1, 0, some 65535⟩
        let after := (final (link P) (resumed, resumed) [bareRtp 0]).2.stream 1
        ((∃ plain, (outputs (link P) (resumed, resumed) [bareRtp 0])[0]? = some (.ok plain)) →
            ∃ highest, after.highestSeq = some highest ∧ after.replay.seen = true ∧
              after.replay.top = after.roc.toNat * 2 ^ 16 + highest.toNat) ∧
          ((resumed.stream 1).Advances 0 →
            (outputs (link P) (resumed, resumed) [bareRtp 0])[0]? ≠ some (.error .replayed)) := by
  have hparse : parseRtpHeader (bareRtp 0) = .ok (12, 1, 0) := parseRtpHeader_bareRtp _
  refine ⟨hparse, fun P material ↦ ?_⟩
  dsimp only
  generalize hresumed : (SrtpContext.fromKeyMaterial P material).seedStream ⟨1, 0, some 65535⟩ =
    resumed
  have hstream : resumed.stream 1 = (StreamRollover.mk 1 0 (some 65535)).seeded := by
    rw [← hresumed, SrtpContext.seedStream, SrtpContext.stream_setStream_self]
  have hstart : (resumed.stream 1).InStep := by
    rw [hstream]
    exact ⟨rfl, nofun⟩
  refine anchor_in_step P (SrtpContext.SameKey.refl resumed) hstart ?_ ?_ (k := 0) rfl hparse
  · rintro rtp hrtp
    rw [List.mem_singleton.mp hrtp]
    exact ⟨12, 0, hparse⟩
  · rintro (_ | k) rtp headerLen seq hrtp -
    · rw [List.take_zero, final_nil, hstream]
      rintro ⟨highest, hhighest, hwraps⟩
      obtain rfl : 65535 = highest := Option.some.inj hhighest
      simp [StreamRollover.seeded] at hwraps
    · simp at hrtp

/-- A packet that reads as one from before the first wrap parts the two records: the window jumps
to the end of the index space while the anchor stays, and the next packet in order, which moves the
anchor, is reported as replayed. -/
theorem anchor_left_behind :
    (parseRtpHeader (bareRtp 5) = .ok (12, 1, 5) ∧
        parseRtpHeader (bareRtp 40000) = .ok (12, 1, 40000) ∧
        parseRtpHeader (bareRtp 6) = .ok (12, 1, 6)) ∧
      ∀ (P : Primitives) (material : SrtpKeyMaterial),
        let fresh := SrtpContext.fromKeyMaterial P material
        let after := (final (link P) (fresh, fresh) [bareRtp 5, bareRtp 40000]).2.stream 1
        outputs (link P) (fresh, fresh) [bareRtp 5, bareRtp 40000, bareRtp 6] =
            [.ok (bareRtp 5), .ok (bareRtp 40000), .error .replayed] ∧
          after.highestSeq = some 5 ∧ after.roc = 0 ∧
          after.replay.top = (2 ^ 32 - 1) * 2 ^ 16 + 40000 ∧ after.Advances 6 := by
  have hfirst : parseRtpHeader (bareRtp 5) = .ok (12, 1, 5) := parseRtpHeader_bareRtp _
  have hsecond : parseRtpHeader (bareRtp 40000) = .ok (12, 1, 40000) := parseRtpHeader_bareRtp _
  have hthird : parseRtpHeader (bareRtp 6) = .ok (12, 1, 6) := parseRtpHeader_bareRtp _
  refine ⟨⟨hfirst, hsecond, hthird⟩, fun P material ↦ ?_⟩
  dsimp only
  generalize hcontext : SrtpContext.fromKeyMaterial P material = fresh
  have hempty : fresh.stream 1 = {} := by rw [← hcontext, SrtpContext.stream_fromKeyMaterial]
  simp only [outputs_cons, outputs_nil, final_cons, final_nil]
  obtain ⟨hone, hkeyOne, hsendOne, hreceiveOne⟩ :=
    link_delivers P (fresh, fresh) (SrtpContext.SameKey.refl fresh) hfirst hempty hempty
      (by decide) (by decide)
  obtain ⟨htwo, hkeyTwo, hsendTwo, hreceiveTwo⟩ :=
    link_delivers P _ hkeyOne hsecond hsendOne hreceiveOne (by decide) (by decide)
  have hthree := link_of_guess P hkeyTwo hthird (by rw [hsendTwo, hreceiveTwo]; decide)
  rw [hsendTwo] at hthree
  rw [hone, htwo, hthree, hreceiveTwo]
  exact ⟨rfl, by decide, by decide, by decide, by decide⟩

end SiphonRtp.Srtp
