import SiphonRtp.Srtp.Rollover
import SiphonRtp.Srtp.SecureLeg

/-!
# Handoff of a secure leg to a standby

A standby rebuilds a leg from its two keys and seeds it with the primary's rollover snapshot. The
snapshot carries the rollover anchors and the outbound SRTCP index and nothing of the replay
windows, so the standby's windows are weaker than the primary's: what they block, the primary's
block too (`SrtpContext.Resumes`, `SrtcpContext.Resumes`). From there the two legs protect alike,
and the standby accepts whatever the primary would, with the same plaintext (`handoff_seamless`).

The weaker window of a seeded stream is the one anchored at its rollover anchor. That the primary's
window blocks as much is an invariant of every reachable leg (`StreamState.Anchored`): an anchor
only moves to an index that is recorded in the same step.
-/

set_option autoImplicit false

namespace SiphonRtp.Srtp

open Machine

/-! ### Streams -/

namespace StreamState

variable {state other : StreamState} {seq : UInt16}

/-- Two streams with one rollover anchor. -/
def SameAnchor (state other : StreamState) : Prop :=
  state.roc = other.roc ∧ state.highestSeq = other.highestSeq

/-- The guess depends on the anchor alone, and moves it alike. -/
theorem SameAnchor.indexFor (hanchor : state.SameAnchor other) (seq : UInt16) :
    (state.indexFor seq).1 = (other.indexFor seq).1 ∧
      (state.indexFor seq).2.SameAnchor (other.indexFor seq).2 := by
  obtain ⟨hroc, hhighest⟩ := hanchor
  rcases hsome : other.highestSeq with _ | highest
  · rw [indexFor_of_none hsome, indexFor_of_none (hhighest.trans hsome), hroc]
    exact ⟨rfl, rfl, rfl⟩
  · rw [indexFor_of_some hsome, indexFor_of_some (hhighest.trans hsome), hroc]
    refine ⟨rfl, ?_⟩
    split_ifs
    · exact ⟨rfl, rfl⟩
    · exact ⟨rfl, rfl⟩
    · exact ⟨hroc, hhighest⟩

/-- The window blocks whatever a window anchored at the rollover anchor does, and a stream without
an anchor has not rolled over. -/
structure Anchored (state : StreamState) : Prop where
  blocked : ∀ index, state.anchorIndex = some index →
    admitted replayWindow ∅ index ⊆ state.replay.blocked
  fresh : state.highestSeq = none → state.roc = 0

theorem anchored_default : ({} : StreamState).Anchored := ⟨nofun, fun _ ↦ rfl⟩

/-- Accepting a packet keeps a stream anchored: if the anchor moves, it moves to the index that is
recorded. -/
theorem Anchored.accepted (hanchored : state.Anchored) : (state.accepted seq).Anchored := by
  have hrecord : (state.accepted seq).replay.blocked =
      admitted replayWindow state.replay.blocked (state.indexFor seq).1.1 :=
    ReplayWindow.blocked_record _ _
  rcases hhighest : state.highestSeq with _ | highest
  · have hroc := hanchored.fresh hhighest
    refine ⟨fun index hindex ↦ ?_, ?_⟩
    · rw [hrecord]
      simp only [anchorIndex, StreamState.accepted, indexFor_of_none hhighest, Option.map_some,
        hroc, packetIndex_eq, Option.some.injEq] at hindex ⊢
      rw [← hindex, UInt32.toNat_zero, Nat.zero_mul, Nat.zero_add]
      exact admitted_empty_subset
    · simp [StreamState.accepted, indexFor_of_none hhighest]
  · obtain ⟨hguess, hrests | hmoves⟩ := indexFor_cases seq hhighest
    · refine ⟨fun index hindex ↦ ?_, fun hnone ↦ ?_⟩
      · rw [hrecord]
        have hsame : (state.accepted seq).anchorIndex = state.anchorIndex := by
          simp only [anchorIndex, StreamState.accepted, hrests]
        exact (hanchored.blocked index (hsame ▸ hindex)).trans subset_admitted
      · simp [StreamState.accepted, hrests, hhighest] at hnone
    · refine ⟨fun index hindex ↦ ?_, fun hnone ↦ ?_⟩
      · rw [hrecord]
        simp only [anchorIndex, StreamState.accepted, hmoves, Option.map_some,
          Option.some.injEq] at hindex
        rw [hguess, hindex]
        exact admitted_empty_subset
      · simp [StreamState.accepted, hmoves] at hnone

/-- A stream seeded from the checkpoint of an anchored stream is anchored, and its window blocks no
more than the original one. -/
theorem Anchored.seeded (hanchored : state.Anchored) (ssrc : UInt32) :
    (StreamRollover.seeded ⟨ssrc, state.roc, state.highestSeq⟩).Anchored ∧
      (StreamRollover.seeded ⟨ssrc, state.roc, state.highestSeq⟩).replay.blocked ⊆
        state.replay.blocked := by
  rcases hhighest : state.highestSeq with _ | highest
  · refine ⟨⟨nofun, fun _ ↦ hanchored.fresh hhighest⟩, ?_⟩
    exact ReplayWindow.blocked_default ▸ Set.empty_subset _
  · have hanchor : state.anchorIndex = some (packetIndex state.roc highest) := by
      rw [anchorIndex, hhighest, Option.map_some]
    have hwindow : (StreamRollover.seeded ⟨ssrc, state.roc, some highest⟩).replay.blocked =
        admitted replayWindow ∅ (packetIndex state.roc highest) := ReplayWindow.blocked_anchor _
    refine ⟨⟨fun index hindex ↦ ?_, nofun⟩, ?_⟩
    · obtain rfl : packetIndex state.roc highest = index := Option.some.inj hindex
      exact hwindow.ge
    · rw [hwindow]
      exact hanchored.blocked _ hanchor

end StreamState

/-! ### SRTP contexts -/

namespace SrtpContext

variable (P : Primitives) {standby primary : SrtpContext}

/-- Two contexts under one key whose streams have the same anchors. -/
structure SameAnchors (standby primary : SrtpContext) : Prop where
  key : standby.SameKey primary
  anchor : ∀ ssrc, (standby.stream ssrc).SameAnchor (primary.stream ssrc)

/-- The anchors agree, and the standby's windows block no more than the primary's. -/
structure Resumes (standby primary : SrtpContext) : Prop extends SameAnchors standby primary where
  blocked : ∀ ssrc, (standby.stream ssrc).replay.blocked ⊆ (primary.stream ssrc).replay.blocked

theorem SameAnchors.setStream (hsame : standby.SameAnchors primary) (ssrc : UInt32)
    {state other : StreamState} (hanchor : state.SameAnchor other) :
    (standby.setStream ssrc state).SameAnchors (primary.setStream ssrc other) := by
  refine ⟨((SameKey.setStream _ _ _).trans hsame.key).trans (SameKey.setStream _ _ _).symm,
    fun stream ↦ ?_⟩
  by_cases hstream : stream = ssrc
  · subst hstream
    rwa [stream_setStream_self, stream_setStream_self]
  · rw [stream_setStream_of_ne _ hstream, stream_setStream_of_ne _ hstream]
    exact hsame.anchor stream

/-- Contexts with the same anchors protect alike. -/
theorem SameAnchors.protect (hsame : standby.SameAnchors primary) (rtp : Bytes) :
    (standby.protect P rtp).1 = (primary.protect P rtp).1 ∧
      (standby.protect P rtp).2.SameAnchors (primary.protect P rtp).2 := by
  rcases hparse : parseRtpHeader rtp with error | ⟨headerLen, ssrc, seq⟩
  · rw [protect_of_parse_error P hparse, protect_of_parse_error P hparse]
    exact ⟨rfl, hsame⟩
  · obtain ⟨hguess, hmoved⟩ := (hsame.anchor ssrc).indexFor seq
    rw [protect_eq P hparse, protect_eq P hparse, hguess, hsame.key.sealed]
    exact ⟨rfl, hsame.setStream ssrc hmoved⟩

/-- A standby that resumes the primary accepts what the primary accepts, and resumes it still. -/
theorem Resumes.unprotect (hresumes : standby.Resumes primary) {srtp : Bytes}
    (haccepted : (primary.unprotect P srtp).1.isOk = true) :
    (standby.unprotect P srtp).1 = (primary.unprotect P srtp).1 ∧
      (standby.unprotect P srtp).2.Resumes (primary.unprotect P srtp).2 := by
  rcases primary.unprotect_cases P srtp with
    ⟨error, heq⟩ | ⟨authenticated, tag, headerLen, ssrc, seq, -, hopens⟩
  · simp [heq, Except.toBool] at haccepted
  rw [hopens standby hresumes.key.mki, hopens primary rfl] at *
  obtain ⟨hguess, hmoved⟩ := (hresumes.anchor ssrc).indexFor seq
  rcases primary.openPortion_cases P authenticated tag headerLen ssrc seq with
    ⟨error, heq⟩ | ⟨hfresh, htag, heq⟩
  · simp [heq, Except.toBool] at haccepted
  have hstandby : (standby.stream ssrc).replay.isReplay
      ((primary.stream ssrc).indexFor seq).1.1 = false := by
    rw [Bool.eq_false_iff]
    intro hreplay
    have hblocked := hresumes.blocked ssrc (ReplayWindow.mem_blocked.mpr hreplay)
    rw [ReplayWindow.mem_blocked, hfresh] at hblocked
    exact Bool.false_ne_true hblocked
  have hopened : standby.openPortion P authenticated tag headerLen ssrc seq =
      (.ok (xorFrom headerLen (primary.keystream P ssrc ((primary.stream ssrc).indexFor seq).1.1)
          authenticated), standby.setStream ssrc ((standby.stream ssrc).accepted seq)) := by
    simp only [openPortion, hguess, hstandby, hresumes.key.sessionAuth, htag,
      hresumes.key.keystream, ne_eq, not_true_eq_false, Bool.false_eq_true, ↓reduceIte]
  rw [heq, hopened]
  refine ⟨rfl, hresumes.toSameAnchors.setStream ssrc hmoved, fun stream ↦ ?_⟩
  by_cases hstream : stream = ssrc
  · subst hstream
    rw [stream_setStream_self, stream_setStream_self]
    simp only [StreamState.accepted, hguess]
    rw [ReplayWindow.blocked_record, ReplayWindow.blocked_record]
    exact admitted_mono (hresumes.blocked stream)
  · rw [stream_setStream_of_ne _ hstream, stream_setStream_of_ne _ hstream]
    exact hresumes.blocked stream

/-! ### Seeding -/

theorem sameKey_seedStreams (context : SrtpContext) (streams : List StreamRollover) :
    (context.seedStreams streams).SameKey context := by
  induction streams generalizing context with
  | nil => exact SameKey.refl context
  | cons rollover rest ih =>
    exact (ih (context.seedStream rollover)).trans (SameKey.setStream _ _ _)

theorem stream_seedStreams_of_ne (context : SrtpContext) {streams : List StreamRollover}
    {ssrc : UInt32} (hother : ∀ rollover ∈ streams, rollover.ssrc ≠ ssrc) :
    (context.seedStreams streams).stream ssrc = context.stream ssrc := by
  induction streams generalizing context with
  | nil => rfl
  | cons rollover rest ih =>
    have hne : ssrc ≠ rollover.ssrc := (hother rollover (by simp)).symm
    have hrest := ih (context.seedStream rollover)
      fun other hmem ↦ hother other (List.mem_cons_of_mem _ hmem)
    exact hrest.trans (stream_setStream_of_ne context hne _)

/-- Seeding distinct streams leaves each of them as its checkpoint says. -/
theorem stream_seedStreams_of_mem (context : SrtpContext) {streams : List StreamRollover}
    (hnodup : (streams.map StreamRollover.ssrc).Nodup) {rollover : StreamRollover}
    (hmem : rollover ∈ streams) :
    (context.seedStreams streams).stream rollover.ssrc = rollover.seeded := by
  induction streams generalizing context with
  | nil => simp at hmem
  | cons head rest ih =>
    rw [List.map_cons, List.nodup_cons] at hnodup
    rcases List.mem_cons.mp hmem with rfl | hrest
    · have hother : ∀ other ∈ rest, other.ssrc ≠ rollover.ssrc := fun other hother heq ↦
        hnodup.1 (List.mem_map.mpr ⟨other, hother, heq⟩)
      have hlater := stream_seedStreams_of_ne (context.seedStream rollover) hother
      exact hlater.trans (stream_setStream_self context _ _)
    · exact ih (context.seedStream head) hnodup.2 hrest

theorem nodup_rolloverState (context : SrtpContext) :
    (context.rolloverState.map StreamRollover.ssrc).Nodup := by
  have hkeys := context.streams.keys_nodup
  simpa [rolloverState, Function.comp_def, AList.keys, List.keys] using hkeys

theorem mem_rolloverState {context : SrtpContext} {rollover : StreamRollover} :
    rollover ∈ context.rolloverState ↔
      ∃ state, context.streams.lookup rollover.ssrc = some state ∧
        rollover = ⟨rollover.ssrc, state.roc, state.highestSeq⟩ := by
  simp only [rolloverState, List.mem_map]
  constructor
  · rintro ⟨entry, hentry, rfl⟩
    exact ⟨entry.2, AList.mem_lookup_iff.mpr hentry, rfl⟩
  · rintro ⟨state, hlookup, heq⟩
    exact ⟨⟨rollover.ssrc, state⟩, AList.mem_lookup_iff.mp hlookup, heq.symm⟩

/-- A context without streams, seeded with the exported streams of another one in any order, has the
seeded counterpart of every stream. -/
theorem stream_seedStreams_rolloverState {fresh : SrtpContext}
    (hempty : ∀ ssrc, fresh.stream ssrc = {})
    {streams : List StreamRollover} (hstreams : streams.Perm primary.rolloverState)
    (ssrc : UInt32) :
    (fresh.seedStreams streams).stream ssrc =
      StreamRollover.seeded
        ⟨ssrc, (primary.stream ssrc).roc, (primary.stream ssrc).highestSeq⟩ := by
  rcases hlookup : primary.streams.lookup ssrc with _ | state
  · have hother : ∀ rollover ∈ streams, rollover.ssrc ≠ ssrc := by
      rintro rollover hmem rfl
      obtain ⟨state, hstate, -⟩ := mem_rolloverState.mp (hstreams.mem_iff.mp hmem)
      simp [hlookup] at hstate
    rw [stream_seedStreams_of_ne fresh hother, hempty, stream, hlookup]
    rfl
  · have hnodup : (streams.map StreamRollover.ssrc).Nodup :=
      (hstreams.map StreamRollover.ssrc).nodup_iff.mpr primary.nodup_rolloverState
    have hmem : ⟨ssrc, state.roc, state.highestSeq⟩ ∈ streams :=
      hstreams.mem_iff.mpr (mem_rolloverState.mpr ⟨state, hlookup, rfl⟩)
    have hstream : primary.stream ssrc = state := by rw [stream, hlookup, Option.getD_some]
    rw [hstream]
    exact stream_seedStreams_of_mem fresh hnodup hmem

/-- Seeding restores the anchors, whatever the windows of the primary are. -/
theorem sameAnchors_seedStreams {fresh : SrtpContext} (hempty : ∀ ssrc, fresh.stream ssrc = {})
    (hkey : fresh.SameKey primary) {streams : List StreamRollover}
    (hstreams : streams.Perm primary.rolloverState) :
    (fresh.seedStreams streams).SameAnchors primary := by
  refine ⟨(sameKey_seedStreams fresh streams).trans hkey, fun ssrc ↦ ?_⟩
  rw [stream_seedStreams_rolloverState hempty hstreams]
  exact ⟨rfl, rfl⟩

/-- Assumes: every stream of the primary is anchored. A seeded context resumes the primary, and its
streams are anchored too. -/
theorem resumes_seedStreams {fresh : SrtpContext} (hempty : ∀ ssrc, fresh.stream ssrc = {})
    (hkey : fresh.SameKey primary) (hanchored : ∀ ssrc, (primary.stream ssrc).Anchored)
    {streams : List StreamRollover} (hstreams : streams.Perm primary.rolloverState) :
    (fresh.seedStreams streams).Resumes primary ∧
      ∀ ssrc, ((fresh.seedStreams streams).stream ssrc).Anchored := by
  have hstream := stream_seedStreams_rolloverState hempty hstreams
  refine ⟨⟨sameAnchors_seedStreams hempty hkey hstreams, fun ssrc ↦ ?_⟩, fun ssrc ↦ ?_⟩
  · rw [hstream]
    exact ((hanchored ssrc).seeded ssrc).2
  · rw [hstream]
    exact ((hanchored ssrc).seeded ssrc).1

/-- Unprotecting keeps every stream anchored and the key as it is. -/
theorem anchored_unprotect {context : SrtpContext}
    (hanchored : ∀ ssrc, (context.stream ssrc).Anchored) (srtp : Bytes) :
    (context.unprotect P srtp).2.SameKey context ∧
      ∀ ssrc, ((context.unprotect P srtp).2.stream ssrc).Anchored := by
  rcases context.unprotect_cases P srtp with
    ⟨error, heq⟩ | ⟨authenticated, tag, headerLen, ssrc, seq, -, hopens⟩
  · rw [heq]
    exact ⟨SameKey.refl context, hanchored⟩
  rw [hopens context rfl]
  rcases context.openPortion_cases P authenticated tag headerLen ssrc seq with
    ⟨error, heq⟩ | ⟨hfresh, -, heq⟩
  · rw [heq]
    exact ⟨SameKey.refl context, hanchored⟩
  · rw [heq]
    refine ⟨SameKey.setStream _ _ _, fun stream ↦ ?_⟩
    by_cases hstream : stream = ssrc
    · subst hstream
      rw [stream_setStream_self]
      exact (hanchored stream).accepted
    · rw [stream_setStream_of_ne _ hstream]
      exact hanchored stream

/-- Protecting keeps the key as it is. -/
theorem sameKey_protect (context : SrtpContext) (rtp : Bytes) :
    (context.protect P rtp).2.SameKey context := by
  rcases hparse : parseRtpHeader rtp with error | ⟨headerLen, ssrc, seq⟩
  · rw [protect_of_parse_error P hparse]
    exact SameKey.refl context
  · rw [protect_eq P hparse]
    exact SameKey.setStream _ _ _

end SrtpContext

/-! ### SRTCP contexts -/

namespace SrtcpContext

variable (P : Primitives) {standby primary : SrtcpContext}

/-- The keys agree, and the standby's window blocks no more than the primary's. -/
structure Resumes (standby primary : SrtcpContext) : Prop where
  key : standby.SameKey primary
  blocked : standby.recvReplay.blocked ⊆ primary.recvReplay.blocked

theorem Resumes.unprotect (hresumes : standby.Resumes primary) {srtcp : Bytes}
    (haccepted : (primary.unprotect P srtcp).1.isOk = true) :
    (standby.unprotect P srtcp).1 = (primary.unprotect P srtcp).1 ∧
      (standby.unprotect P srtcp).2.Resumes (primary.unprotect P srtcp).2 := by
  rcases primary.unprotect_cases P srtcp with ⟨error, heq⟩ | ⟨plain, index, hfresh, hopens⟩
  · simp [heq, Except.toBool] at haccepted
  have hstandby : standby.recvReplay.isReplay index = false := by
    rw [Bool.eq_false_iff]
    intro hreplay
    have hblocked := hresumes.blocked (ReplayWindow.mem_blocked.mpr hreplay)
    rw [ReplayWindow.mem_blocked, hfresh] at hblocked
    exact Bool.false_ne_true hblocked
  rw [hopens standby hresumes.key hstandby, hopens primary (SameKey.refl primary) hfresh]
  refine ⟨rfl, ⟨hresumes.key.sessionKey, hresumes.key.sessionSalt, hresumes.key.sessionAuth,
    hresumes.key.mki⟩, ?_⟩
  rw [ReplayWindow.blocked_record, ReplayWindow.blocked_record]
  exact admitted_mono hresumes.blocked

theorem sameKey_unprotect (context : SrtcpContext) (srtcp : Bytes) :
    (context.unprotect P srtcp).2.SameKey context := by
  rcases context.unprotect_cases P srtcp with ⟨error, heq⟩ | ⟨plain, index, hfresh, hopens⟩
  · rw [heq]
    exact SameKey.refl context
  · rw [hopens context (SameKey.refl context) hfresh]
    exact ⟨rfl, rfl, rfl, rfl⟩

end SrtcpContext

/-! ### Legs -/

namespace SecureLeg

variable (P : Primitives) (localKey remoteKey : SrtpKeyMaterial)

/-- A snapshot of a leg's rollover state, its streams in whatever order they were exported. -/
structure Snapshot (leg : SecureLeg) (snapshot : SecureLegRollover) : Prop where
  inboundRtp : snapshot.inboundRtp.Perm leg.rolloverSnapshot.inboundRtp
  outboundRtp : snapshot.outboundRtp.Perm leg.rolloverSnapshot.outboundRtp
  outboundRtcpIndex : snapshot.outboundRtcpIndex = leg.rolloverSnapshot.outboundRtcpIndex

/-- The leg a standby builds from the two keys and a snapshot. -/
def takeOver (snapshot : SecureLegRollover) : SecureLeg :=
  (new P localKey remoteKey).seedRollover snapshot

/-- The states of a leg: a fresh one, one that protected or unprotected a packet, and one that took
over from another leg with the same keys. -/
inductive Reachable : SecureLeg → Prop
  | new : Reachable (new P localKey remoteKey)
  | protect {leg : SecureLeg} (packet : Bytes) (hleg : Reachable leg) :
      Reachable (leg.protect P packet).2
  | unprotect {leg : SecureLeg} (packet : Bytes) (hleg : Reachable leg) :
      Reachable (leg.unprotect P packet).2
  | takeOver {leg : SecureLeg} {snapshot : SecureLegRollover} (hleg : Reachable leg)
      (hsnapshot : leg.Snapshot snapshot) : Reachable (takeOver P localKey remoteKey snapshot)

/-- What holds of every reachable leg: its contexts are under the leg's keys, and its inbound
streams are anchored. -/
structure WellFormed (leg : SecureLeg) : Prop where
  inboundRtp : leg.inboundRtp.SameKey (new P localKey remoteKey).inboundRtp
  outboundRtp : leg.outboundRtp.SameKey (new P localKey remoteKey).outboundRtp
  inboundRtcp : leg.inboundRtcp.SameKey (new P localKey remoteKey).inboundRtcp
  outboundRtcp : leg.outboundRtcp.SameKey (new P localKey remoteKey).outboundRtcp
  anchored : ∀ ssrc, (leg.inboundRtp.stream ssrc).Anchored

/-- A standby that resumes a primary leg, context by context. -/
structure Resumes (standby primary : SecureLeg) : Prop where
  inboundRtp : standby.inboundRtp.Resumes primary.inboundRtp
  outboundRtp : standby.outboundRtp.SameAnchors primary.outboundRtp
  inboundRtcp : standby.inboundRtcp.Resumes primary.inboundRtcp
  outboundRtcp : standby.outboundRtcp.SameKey primary.outboundRtcp
  outboundRtcpIndex : standby.outboundRtcp.sendIndex = primary.outboundRtcp.sendIndex

variable {P localKey remoteKey} {standby primary leg : SecureLeg}

theorem WellFormed.protect (hleg : WellFormed P localKey remoteKey leg) (packet : Bytes) :
    WellFormed P localKey remoteKey (leg.protect P packet).2 := by
  rcases hkind : isRtcp packet with _ | _
  · rw [protect_of_not_isRtcp P hkind]
    exact { hleg with
      outboundRtp := (SrtpContext.sameKey_protect P leg.outboundRtp packet).trans hleg.outboundRtp }
  · rw [protect_of_isRtcp P hkind]
    exact { hleg with
      outboundRtcp :=
        (SrtcpContext.sameKey_protect P leg.outboundRtcp packet).trans hleg.outboundRtcp }

theorem WellFormed.unprotect (hleg : WellFormed P localKey remoteKey leg) (packet : Bytes) :
    WellFormed P localKey remoteKey (leg.unprotect P packet).2 := by
  rcases hkind : isRtcp packet with _ | _
  · rw [unprotect_of_not_isRtcp P hkind]
    obtain ⟨hkey, hanchored⟩ := SrtpContext.anchored_unprotect P hleg.anchored packet
    exact { hleg with inboundRtp := hkey.trans hleg.inboundRtp, anchored := hanchored }
  · rw [unprotect_of_isRtcp P hkind]
    exact { hleg with
      inboundRtcp :=
        (SrtcpContext.sameKey_unprotect P leg.inboundRtcp packet).trans hleg.inboundRtcp }

/-- A standby built from a snapshot of a well-formed leg resumes it, and is well formed. -/
theorem WellFormed.takeOver (hleg : WellFormed P localKey remoteKey leg)
    {snapshot : SecureLegRollover} (hsnapshot : leg.Snapshot snapshot) :
    (takeOver P localKey remoteKey snapshot).Resumes leg ∧
      WellFormed P localKey remoteKey (takeOver P localKey remoteKey snapshot) := by
  have hinbound := SrtpContext.stream_fromKeyMaterial P remoteKey
  have houtbound := SrtpContext.stream_fromKeyMaterial P localKey
  obtain ⟨hresumes, hanchored⟩ := SrtpContext.resumes_seedStreams hinbound hleg.inboundRtp.symm
    hleg.anchored hsnapshot.inboundRtp
  have hanchors := SrtpContext.sameAnchors_seedStreams houtbound hleg.outboundRtp.symm
    hsnapshot.outboundRtp
  constructor
  · refine ⟨hresumes, hanchors, ⟨hleg.inboundRtcp.symm, ?_⟩, ?_, hsnapshot.outboundRtcpIndex⟩
    · exact ReplayWindow.blocked_default ▸ Set.empty_subset _
    · have hkey := hleg.outboundRtcp.symm
      exact ⟨hkey.sessionKey, hkey.sessionSalt, hkey.sessionAuth, hkey.mki⟩
  · exact ⟨hresumes.key.trans hleg.inboundRtp, hanchors.key.trans hleg.outboundRtp,
      ⟨rfl, rfl, rfl, rfl⟩, ⟨rfl, rfl, rfl, rfl⟩, hanchored⟩

theorem wellFormed_of_reachable (hleg : Reachable P localKey remoteKey leg) :
    WellFormed P localKey remoteKey leg := by
  induction hleg with
  | new =>
    refine ⟨SrtpContext.SameKey.refl _, SrtpContext.SameKey.refl _, SrtcpContext.SameKey.refl _,
      SrtcpContext.SameKey.refl _, fun ssrc ↦ ?_⟩
    exact StreamState.anchored_default
  | protect packet _ ih => exact ih.protect packet
  | unprotect packet _ ih => exact ih.unprotect packet
  | takeOver _ hsnapshot ih => exact (ih.takeOver hsnapshot).2

/-- A standby that resumes a primary protects every packet alike, and resumes it still. -/
theorem Resumes.protect (hresumes : standby.Resumes primary) (packet : Bytes) :
    (standby.protect P packet).1 = (primary.protect P packet).1 ∧
      (standby.protect P packet).2.Resumes (primary.protect P packet).2 := by
  rcases hkind : isRtcp packet with _ | _
  · obtain ⟨hresult, hnext⟩ := hresumes.outboundRtp.protect P packet
    rw [protect_of_not_isRtcp P hkind, protect_of_not_isRtcp P hkind, hresult]
    exact ⟨rfl, { hresumes with outboundRtp := hnext }⟩
  · obtain ⟨hresult, hkey, hindex⟩ :=
      SrtcpContext.protect_congr P hresumes.outboundRtcp hresumes.outboundRtcpIndex packet
    rw [protect_of_isRtcp P hkind, protect_of_isRtcp P hkind, hresult]
    exact ⟨rfl, { hresumes with outboundRtcp := hkey, outboundRtcpIndex := hindex }⟩

/-- A standby that resumes a primary accepts every packet the primary accepts, and resumes it
still. -/
theorem Resumes.unprotect (hresumes : standby.Resumes primary) {packet : Bytes}
    (haccepted : (primary.unprotect P packet).1.isOk = true) :
    (standby.unprotect P packet).1 = (primary.unprotect P packet).1 ∧
      (standby.unprotect P packet).2.Resumes (primary.unprotect P packet).2 := by
  rcases hkind : isRtcp packet with _ | _
  · rw [unprotect_of_not_isRtcp P hkind, isOk_map] at haccepted
    rw [unprotect_of_not_isRtcp P hkind, unprotect_of_not_isRtcp P hkind]
    obtain ⟨hresult, hnext⟩ := hresumes.inboundRtp.unprotect P haccepted
    rw [hresult]
    exact ⟨rfl, { hresumes with inboundRtp := hnext }⟩
  · rw [unprotect_of_isRtcp P hkind, isOk_map] at haccepted
    rw [unprotect_of_isRtcp P hkind, unprotect_of_isRtcp P hkind]
    obtain ⟨hresult, hnext⟩ := hresumes.inboundRtcp.unprotect P haccepted
    rw [hresult]
    exact ⟨rfl, { hresumes with inboundRtcp := hnext }⟩

end SecureLeg

/-- Handoff is seamless. Assumes: a reachable primary leg and a snapshot of it. The standby built
from the same keys and that snapshot protects every later sequence of packets as the primary would,
and where the primary would accept every packet of a later sequence, the standby accepts them all
with the same plaintext. -/
theorem handoff_seamless {P : Primitives} {localKey remoteKey : SrtpKeyMaterial}
    {primary : SecureLeg} (hprimary : SecureLeg.Reachable P localKey remoteKey primary)
    {snapshot : SecureLegRollover} (hsnapshot : primary.Snapshot snapshot) :
    let standby := SecureLeg.takeOver P localKey remoteKey snapshot
    (∀ packets, outputs (SecureLeg.protect P) standby packets =
        outputs (SecureLeg.protect P) primary packets) ∧
      ∀ packets, (∀ result ∈ outputs (SecureLeg.unprotect P) primary packets, result.isOk = true) →
        outputs (SecureLeg.unprotect P) standby packets =
          outputs (SecureLeg.unprotect P) primary packets := by
  have hresumes := ((SecureLeg.wellFormed_of_reachable hprimary).takeOver hsnapshot).1
  constructor
  · intro packets
    exact outputs_eq_of_simulation (fun leg standby ↦ standby.Resumes leg) (fun _ ↦ True)
      (fun leg standby packet hrelated _ ↦ hrelated.protect packet) hresumes fun _ _ ↦ trivial
  · intro packets haccepted
    exact outputs_eq_of_simulation (fun leg standby ↦ standby.Resumes leg)
      (fun result ↦ result.isOk = true)
      (fun leg standby packet hrelated hok ↦ hrelated.unprotect hok)
      hresumes haccepted

/-- A leg that has sent one packet, handed off. -/
theorem handoff_seamless_after_send :
    isRtcp (bareRtp 65535) = false ∧
      ∀ (P : Primitives) (localKey remoteKey : SrtpKeyMaterial),
        let primary := ((SecureLeg.new P localKey remoteKey).protect P (bareRtp 65535)).2
        let standby := SecureLeg.takeOver P localKey remoteKey primary.rolloverSnapshot
        SecureLeg.Reachable P localKey remoteKey primary ∧
          outputs (SecureLeg.protect P) standby [bareRtp 0] =
            outputs (SecureLeg.protect P) primary [bareRtp 0] := by
  refine ⟨by decide, fun P localKey remoteKey ↦ ?_⟩
  have hfresh : SecureLeg.Reachable P localKey remoteKey (SecureLeg.new P localKey remoteKey) :=
    SecureLeg.Reachable.new
  have hprimary := SecureLeg.Reachable.protect (bareRtp 65535) hfresh
  exact ⟨hprimary, (handoff_seamless hprimary
    ⟨List.Perm.refl _, List.Perm.refl _, rfl⟩).1 [bareRtp 0]⟩

end SiphonRtp.Srtp
