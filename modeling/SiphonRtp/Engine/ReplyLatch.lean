import SiphonRtp.Datapath.Dispatch

/-!
# The reply latches of the userspace consumers

`siphon-rtp-engine/src/reply_latch.rs`: the two latches that decide where a redirected stream is
answered to, both over `source_latch_verdict` of the datapath.

`SymmetricLatch` is the latch of a stream with SSRCs. It follows a new source that carries the SSRC
it adopted first, and stores no source from a datagram without one (`SymmetricLatch.admits_cases`).
`OpaqueLatch` is the latch of a stream that has none, the floor and fax streams: the first datagram
teaches it its source, and no later one moves it (`OpaqueLatch.admits_empty`,
`OpaqueLatch.admits_latched`).
-/

set_option autoImplicit false

namespace SiphonRtp.Engine

open Machine Datapath

/-- The outcome of one redirected datagram, `Ingress` of `ingress.rs`. -/
inductive Ingress
  | accepted
  | droppedFromPeer
  | refused
deriving DecidableEq

/-- What a reply latch decides for one datagram: the address to reply to, if there is one. -/
inductive ReplyLatch
  | accept (reply : Option SocketAddr)
  | reject
deriving DecidableEq

/-! ### Streams with an SSRC -/

structure SymmetricLatch where
  latch : Option (SourceLatch SocketAddr) := none
deriving DecidableEq

namespace SymmetricLatch

/-- `SymmetricLatch::admit`. -/
def admits (latch : SymmetricLatch) (source : SocketAddr) (ssrc : Option UInt32) :
    ReplyLatch × SymmetricLatch :=
  match sourceLatchVerdict latch.latch source ssrc with
  | .keep => (.accept (some source), latch)
  | .learn learned =>
    -- a source without an SSRC is not stored, so RTCP before any RTP never aims the reply
    if learned.ssrc = none then (.accept none, latch)
    else (.accept (some source), { latch := some learned })
  | .reject => (.reject, latch)

/-- The SSRC of the stream the latch adopted. -/
def ssrc (latch : SymmetricLatch) : Option UInt32 := latch.latch.bind (·.ssrc)

/-- The source the latch adopted. -/
def latched (latch : SymmetricLatch) : Option SocketAddr := latch.latch.map (·.source)

/-- A latch as `admit` leaves it: whatever it stored carried an SSRC. -/
def Pinned (latch : SymmetricLatch) : Prop :=
  ∀ stored, latch.latch = some stored → stored.ssrc.isSome = true

/-- What a latch does with a datagram: refuse a source that cannot prove itself, confirm its own,
let pass what comes before any SSRC, or adopt the source of the SSRC it follows. -/
theorem admits_cases {latch : SymmetricLatch} (hpinned : latch.Pinned) (source : SocketAddr)
    (ssrc : Option UInt32) :
    (∃ stored, latch.latch = some stored ∧ stored.source ≠ source ∧
        (ssrc = none ∨ stored.ssrc ≠ ssrc) ∧ latch.admits source ssrc = (.reject, latch)) ∨
      (∃ stored, latch.latch = some stored ∧ stored.source = source ∧
        latch.admits source ssrc = (.accept (some source), latch)) ∨
      (latch.latch = none ∧ ssrc = none ∧ latch.admits source ssrc = (.accept none, latch)) ∨
      ∃ seen, ssrc = some seen ∧
        (latch.latch = none ∨ ∃ stored, latch.latch = some stored ∧ stored.source ≠ source ∧
          stored.ssrc = some seen) ∧
        latch.admits source ssrc =
          (.accept (some source), { latch := some { source, ssrc := some seen } }) := by
  cases hlatch : latch.latch with
  | none =>
    cases ssrc with
    | none =>
      refine Or.inr (Or.inr (Or.inl ⟨rfl, rfl, ?_⟩))
      rw [admits, hlatch]
      rfl
    | some seen =>
      refine Or.inr (Or.inr (Or.inr ⟨seen, rfl, Or.inl rfl, ?_⟩))
      rw [admits, hlatch]
      rfl
  | some stored =>
    obtain ⟨known, hknown⟩ := Option.isSome_iff_exists.mp (hpinned stored hlatch)
    by_cases hsource : stored.source = source
    · refine Or.inr (Or.inl ⟨stored, rfl, hsource, ?_⟩)
      have hverdict : sourceLatchVerdict (some stored) source ssrc = .keep := by
        simp [sourceLatchVerdict, hsource, hknown]
      rw [admits, hlatch, hverdict]
    · cases ssrc with
      | none =>
        refine Or.inl ⟨stored, rfl, hsource, Or.inl rfl, ?_⟩
        have hverdict : sourceLatchVerdict (some stored) source none = .reject := by
          simp [sourceLatchVerdict, hsource]
        rw [admits, hlatch, hverdict]
      | some seen =>
        by_cases hsame : known = seen
        · subst hsame
          refine Or.inr (Or.inr (Or.inr ⟨known, rfl, Or.inr ⟨stored, rfl, hsource, hknown⟩, ?_⟩))
          have hverdict : sourceLatchVerdict (some stored) source (some known) =
              .learn { source, ssrc := some known } := by
            simp [sourceLatchVerdict, hsource, hknown]
          rw [admits, hlatch, hverdict]
          rfl
        · refine Or.inl ⟨stored, rfl, hsource, Or.inr ?_, ?_⟩
          · rw [hknown]
            exact fun h ↦ hsame (Option.some.inj h)
          · have hverdict : sourceLatchVerdict (some stored) source (some seen) = .reject := by
              simp [sourceLatchVerdict, hsource, hknown, hsame]
            rw [admits, hlatch, hverdict]

theorem pinned_default : Pinned {} := fun _ hstored ↦ nomatch hstored

end SymmetricLatch

/-! ### Streams without an SSRC -/

structure OpaqueLatch where
  latch : Option (SourceLatch SocketAddr) := none
deriving DecidableEq

namespace OpaqueLatch

/-- `OpaqueLatch::admit`. -/
def admits (latch : OpaqueLatch) (source : SocketAddr) : ReplyLatch × OpaqueLatch :=
  match sourceLatchVerdict latch.latch source none with
  | .keep => (.accept (some source), latch)
  | .learn learned => (.accept (some source), { latch := some learned })
  | .reject => (.reject, latch)

/-- The latched source. -/
def latched (latch : OpaqueLatch) : Option SocketAddr := latch.latch.map (·.source)

/-- A latch that resumes a source it learned before a failover. -/
def pinned (source : SocketAddr) : OpaqueLatch := { latch := some { source, ssrc := none } }

theorem admits_empty {latch : OpaqueLatch} (hempty : latch.latched = none) (source : SocketAddr) :
    latch.admits source = (.accept (some source), pinned source) := by
  have hlatch : latch.latch = none := Option.map_eq_none_iff.mp hempty
  rw [admits, hlatch]
  rfl

/-- A learned source is confirmed by itself and moved by nothing. -/
theorem admits_latched {latch : OpaqueLatch} {learned : SocketAddr}
    (hlearned : latch.latched = some learned) (source : SocketAddr) :
    latch.admits source =
      (if source = learned then .accept (some source) else .reject, latch) := by
  obtain ⟨stored, hstored, rfl⟩ := Option.map_eq_some_iff.mp hlearned
  by_cases hsource : stored.source = source
  · have hverdict : sourceLatchVerdict (some stored) source none = .keep := by
      simp [sourceLatchVerdict, hsource]
    rw [admits, hstored, hverdict, if_pos hsource.symm]
  · have hverdict : sourceLatchVerdict (some stored) source none = .reject := by
      cases hssrc : stored.ssrc <;> simp [sourceLatchVerdict, hsource]
    rw [admits, hstored, hverdict, if_neg fun h ↦ hsource h.symm]

/-- Over a whole stream, a learned source stays. -/
theorem latched_admits {latch : OpaqueLatch} {learned : SocketAddr}
    (hlearned : latch.latched = some learned) (source : SocketAddr) :
    (latch.admits source).2.latched = some learned := by
  rw [admits_latched hlearned, hlearned]

end OpaqueLatch

end SiphonRtp.Engine
