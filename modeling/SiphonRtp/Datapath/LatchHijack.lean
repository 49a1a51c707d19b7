import SiphonRtp.Datapath.Dispatch

/-!
# A latched source is not hijacked

Along any sequence of datagrams, on this endpoint and on others, a latch that holds an SSRC keeps
it, and moves only to the source of a datagram that carries it and passes the gate of the flow;
whatever else comes from another source is dropped (`latch_follows_ssrc`). One datagram changes the
latch of an endpoint in one way only, the latch update (`latched_dispatch_cases`), so each part is
read off the three equations of that update.

A latch without an SSRC stays with its source. It is no longer one once that source has sent an
SSRC, and from then on it follows the SSRC like any other (`latch_learned_from_rtcp_moves`).
-/

set_option autoImplicit false

namespace SiphonRtp.Datapath

open Machine

/-! ### One datagram -/

section Step

variable {inner : Inner} {endpoint : EndpointId} {rule : ForwardRule}

/-- What a datagram does to the latch of a forwarding endpoint: nothing, or the update of the latch,
and that only on the endpoint itself, from a source its gate accepts, where the flow latches. -/
theorem latched_dispatch_cases (hflow : inner.flows endpoint = some (.forward rule))
    (arrival : Arrival) :
    (inner.dispatch arrival).2.latched endpoint = inner.latched endpoint ∨
      (arrival.endpoint = endpoint ∧ rule.latch ≠ .off ∧
        rule.acceptedSource.accepts arrival.source.ip = true ∧
        (inner.dispatch arrival).2.latched endpoint =
          (updateLatch (inner.latched endpoint) arrival.source
            (rtpMediaSsrc arrival.payload)).2) := by
  by_cases hhere : endpoint = arrival.endpoint
  swap
  · exact Or.inl ((inner.dispatch_frame arrival).2.2 endpoint hhere)
  subst hhere
  rw [(Inner.dispatch_forward hflow).1]
  unfold Inner.admission
  split
  · exact Or.inl rfl
  split
  · exact Or.inl rfl
  · exact Or.inl rfl
  split
  · exact Or.inl rfl
  rename_i hgate
  split
  · rename_i hlatch
    exact Or.inr ⟨rfl, hlatch, by simpa using hgate, if_pos rfl⟩
  · exact Or.inl rfl

/-- A datagram from another source without the latched SSRC is dropped. Assumes: the endpoint runs
ICE or its flow latches. -/
theorem dispatch_of_other {arrival : Arrival}
    (hflow : inner.flows arrival.endpoint = some (.forward rule))
    (hguarded : inner.ice arrival.endpoint = true ∨ rule.latch ≠ .off) {latched : SocketAddr}
    {known : UInt32}
    (hlatched : inner.latched arrival.endpoint = some { source := latched, ssrc := some known })
    (hother : arrival.source ≠ latched) (hssrc : rtpMediaSsrc arrival.payload ≠ some known) :
    (inner.dispatch arrival).1 = .dropped := by
  apply (Inner.dispatch_forward hflow).2.2.2
  have hne : latched ≠ arrival.source := fun heq ↦ hother heq.symm
  unfold Inner.admission Inner.iceGate
  cases hice : inner.ice arrival.endpoint with
  | true => simp [hlatched, hne]
  | false =>
    have hlatch : rule.latch ≠ .off := by simpa [hice] using hguarded
    simp only [hlatched, updateLatch_pinned, hne, hssrc, or_self, ↓reduceIte, Bool.false_eq_true,
      not_false_eq_true]
    split_ifs
    · rfl
    · rfl
    · rfl

end Step

/-! ### Every sequence of datagrams -/

section Run

variable {inner : Inner} {endpoint : EndpointId} {rule : ForwardRule}

theorem flows_final (inner : Inner) (arrivals : List Arrival) :
    (final Inner.dispatch inner arrivals).flows = inner.flows ∧
      (final Inner.dispatch inner arrivals).ice = inner.ice := by
  refine final_invariant (fun state : Inner ↦ state.flows = inner.flows ∧ state.ice = inner.ice) ?_
    ⟨rfl, rfl⟩
  intro state arrival _ hstate
  obtain ⟨hflows, hice, -⟩ := state.dispatch_frame arrival
  exact ⟨hflows.trans hstate.1, hice.trans hstate.2⟩

/-- A latch that holds an SSRC keeps it. -/
theorem ssrc_kept (hflow : inner.flows endpoint = some (.forward rule)) (arrivals : List Arrival)
    {latched : SocketAddr} {known : UInt32}
    (hlatched : inner.latched endpoint = some { source := latched, ssrc := some known }) :
    ∃ source, (final Inner.dispatch inner arrivals).latched endpoint =
      some { source, ssrc := some known } := by
  let Pinned := fun state : Inner ↦ state.flows = inner.flows ∧
    ∃ source, state.latched endpoint = some { source, ssrc := some known }
  suffices hpinned : Pinned (final Inner.dispatch inner arrivals) from hpinned.2
  refine final_invariant Pinned ?_ ⟨rfl, latched, hlatched⟩
  rintro state arrival - ⟨hflows, source, hsource⟩
  refine ⟨(state.dispatch_frame arrival).1.trans hflows, ?_⟩
  rw [← hflows] at hflow
  rcases latched_dispatch_cases hflow arrival with hkept | ⟨-, -, -, hupdate⟩
  · exact ⟨source, hkept.trans hsource⟩
  · rw [hsource, updateLatch_pinned] at hupdate
    split at hupdate
    · exact ⟨_, hupdate⟩
    · exact ⟨_, hupdate⟩

/-- A flow that does not latch leaves an empty latch empty. -/
theorem latched_none_of_off (hflow : inner.flows endpoint = some (.forward rule))
    (hoff : rule.latch = .off) (hnone : inner.latched endpoint = none) (arrivals : List Arrival) :
    (final Inner.dispatch inner arrivals).latched endpoint = none := by
  let Empty := fun state : Inner ↦ state.flows = inner.flows ∧ state.latched endpoint = none
  suffices hempty : Empty (final Inner.dispatch inner arrivals) from hempty.2
  refine final_invariant Empty ?_ ⟨rfl, hnone⟩
  rintro state arrival - ⟨hflows, hstate⟩
  refine ⟨(state.dispatch_frame arrival).1.trans hflows, ?_⟩
  rw [← hflows] at hflow
  rcases latched_dispatch_cases hflow arrival with hkept | ⟨-, hlatch, -, -⟩
  · exact hkept.trans hstate
  · exact absurd hoff hlatch

/-- A latched source is not hijacked. Assumes: a forwarding flow, and any sequence of datagrams,
other endpoints' among them. From a position on where the latch holds an SSRC, it holds that SSRC;
it moves only to the source of a datagram that carries it and passes the gate; and, where the latch
was empty, or the flow latches, or the endpoint runs ICE, a datagram from another source that does
not carry it is dropped. A latch that holds no SSRC does not move: a datagram leaves it as it is, or
comes from its own source and has its SSRC recorded. -/
theorem latch_follows_ssrc (hflow : inner.flows endpoint = some (.forward rule))
    (arrivals : List Arrival) :
    let state := fun k ↦ final Inner.dispatch inner (arrivals.take k)
    (∀ i j latched known, i ≤ j →
        (state i).latched endpoint = some { source := latched, ssrc := some known } →
          ∃ source, (state j).latched endpoint = some { source, ssrc := some known }) ∧
      (∀ (k : ℕ) arrival latched known, arrivals[k]? = some arrival →
        (state k).latched endpoint = some { source := latched, ssrc := some known } →
          (state (k + 1)).latched endpoint ≠ (state k).latched endpoint →
            arrival.endpoint = endpoint ∧ rtpMediaSsrc arrival.payload = some known ∧
              rule.acceptedSource.accepts arrival.source.ip = true ∧
              (state (k + 1)).latched endpoint =
                some { source := arrival.source, ssrc := some known }) ∧
      (inner.latched endpoint = none ∨ inner.ice endpoint = true ∨ rule.latch ≠ .off →
        ∀ (k : ℕ) arrival latched known, arrivals[k]? = some arrival →
          arrival.endpoint = endpoint →
            (state k).latched endpoint = some { source := latched, ssrc := some known } →
              arrival.source ≠ latched → rtpMediaSsrc arrival.payload ≠ some known →
                (outputs Inner.dispatch inner arrivals)[k]? = some .dropped) ∧
      ∀ (k : ℕ) arrival latched, arrivals[k]? = some arrival →
        (state k).latched endpoint = some { source := latched, ssrc := none } →
          (state (k + 1)).latched endpoint = (state k).latched endpoint ∨
            (arrival.endpoint = endpoint ∧ arrival.source = latched ∧
              (state (k + 1)).latched endpoint =
                some { source := latched, ssrc := rtpMediaSsrc arrival.payload }) := by
  intro state
  have hflows : ∀ k, (state k).flows endpoint = some (.forward rule) := by
    intro k
    rw [(flows_final inner (arrivals.take k)).1]
    exact hflow
  refine ⟨?_, ?_, ?_, ?_⟩
  · intro i j latched known hij hlatched
    have hrest : state j = final Inner.dispatch (state i) ((arrivals.take j).drop i) :=
      final_take_of_le Inner.dispatch inner arrivals hij
    rw [hrest]
    exact ssrc_kept (hflows i) _ hlatched
  · intro k arrival latched known harrival hlatched hmoved
    have hnext : state (k + 1) = ((state k).dispatch arrival).2 :=
      final_take_succ Inner.dispatch harrival inner
    rw [hnext] at hmoved ⊢
    rcases latched_dispatch_cases (hflows k) arrival with hkept | ⟨hhere, -, hgate, hupdate⟩
    · exact absurd hkept hmoved
    · rw [hlatched, updateLatch_pinned] at hupdate
      split at hupdate
      · rename_i htaken
        refine ⟨hhere, ?_, hgate, hupdate⟩
        refine htaken.resolve_left ?_
        intro hsame
        rw [hupdate, hlatched, hsame] at hmoved
        exact hmoved rfl
      · rw [hupdate, hlatched] at hmoved
        exact absurd rfl hmoved
  · intro hguarded k arrival latched known harrival hhere hlatched hother hssrc
    subst hhere
    rw [getElem?_outputs_of_eq _ harrival]
    refine congrArg some (dispatch_of_other (hflows k) ?_ hlatched hother hssrc)
    rw [(flows_final inner (arrivals.take k)).2]
    rcases hguarded with hnone | hguarded
    · by_contra hopen
      have hoff : rule.latch = .off := by
        by_contra hlatch
        exact hopen (Or.inr hlatch)
      rw [latched_none_of_off hflow hoff hnone] at hlatched
      exact nomatch hlatched
    · exact hguarded
  · intro k arrival latched harrival hlatched
    have hnext : state (k + 1) = ((state k).dispatch arrival).2 :=
      final_take_succ Inner.dispatch harrival inner
    rw [hnext]
    rcases latched_dispatch_cases (hflows k) arrival with hkept | ⟨hhere, -, -, hupdate⟩
    · exact Or.inl hkept
    · rw [hlatched, updateLatch_unpinned] at hupdate
      split at hupdate
      · rename_i hsame
        exact Or.inr ⟨hhere, hsame.symm, hupdate⟩
      · exact Or.inl (hupdate.trans hlatched.symm)

end Run

/-! ### A flow under attack -/

/-- The party, and another host. -/
def partySource : SocketAddr := .v4 0xc0000201 4000

def otherSource : SocketAddr := .v4 0xc0000202 4000

/-- A spray with another SSRC is dropped by a flow that has latched the party's. -/
theorem spray_dropped :
    let arrivals : List Arrival := [⟨1, partySource, emptyRtp 7⟩, ⟨1, otherSource, emptyRtp 8⟩]
    (final Inner.dispatch openFlow (arrivals.take 1)).latched 1 =
        some { source := partySource, ssrc := some 7 } ∧
      (outputs Inner.dispatch openFlow arrivals)[1]? = some .dropped := by
  intro arrivals
  have hlatched : (final Inner.dispatch openFlow (arrivals.take 1)).latched 1 =
      some { source := partySource, ssrc := some 7 } := by decide
  exact ⟨hlatched, (latch_follows_ssrc rfl arrivals).2.2.1 (Or.inl rfl) 1
    ⟨1, otherSource, emptyRtp 8⟩ partySource 7 rfl rfl hlatched (by decide) (by decide)⟩

/-- That flow with the latch of the party, and its rule replaced by one that does not latch. -/
def unlatchedFlow : Inner :=
  { openFlow with
    flows := fun _ ↦ some (.forward
      { openRule with outDst := some partySource, latch := .off })
    latched := fun endpoint ↦ if endpoint = 1 then some ⟨partySource, some 7⟩ else none }

/-- A latch learned without an SSRC moves to another source, after its own source has sent RTP; and
a rule that does not latch forwards another source's SSRC past the latch it found. -/
theorem latch_learned_from_rtcp_moves :
    let arrivals : List Arrival := [⟨1, partySource, emptyRtcp⟩, ⟨1, partySource, emptyRtp 7⟩,
      ⟨1, otherSource, emptyRtp 7⟩]
    openFlow.latched 1 = none ∧
      (final Inner.dispatch openFlow (arrivals.take 1)).latched 1 =
        some { source := partySource, ssrc := none } ∧
      (final Inner.dispatch openFlow arrivals).latched 1 =
        some { source := otherSource, ssrc := some 7 } ∧
      otherSource ≠ partySource ∧
      unlatchedFlow.latched 1 = some { source := partySource, ssrc := some 7 } ∧
      outputs Inner.dispatch unlatchedFlow [⟨1, otherSource, emptyRtp 8⟩] =
        [.forwarded 2 partySource] := by
  decide

end SiphonRtp.Datapath
