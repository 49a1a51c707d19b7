import SiphonRtp.Xdp.KernelLatch

/-!
# The kernel's latch against the userspace one

Both datapaths run over the same datagrams, from empty latches and behind the same gate
(`lockstep`). The kernel has no latch without an SSRC. Until an SSRC has been seen it therefore
forwards whatever passes the gate, while userspace is pinned to the first source; from the first
SSRC on the two hold the same latch and decide alike.

So the kernel forwards only what userspace accepts exactly when the datagrams that reach the latch,
up to and including the first one with an SSRC, come from one source (`kernel_narrows_iff`). An RTCP
packet of one host before the RTP of another breaks it, and so does padding that the program takes
for an SSRC (`kernel_forwards_more`).
-/

set_option autoImplicit false

namespace SiphonRtp.Xdp

open Machine Datapath

/-! ### The same flow in both datapaths -/

/-- The datagram of a frame, as userspace receives it. -/
def Frame.arrival (frame : Frame) (endpoint : EndpointId) : Arrival where
  endpoint := endpoint
  source := .v4 frame.sourceIpv4 frame.sourcePort
  payload := frame.payload

/-- A latching flow installed in both datapaths, without ICE and with the same gate. -/
structure SameFlow (endpoint : EndpointId) (rule : ForwardRule) (kernel : FlowAction)
    (inner : Inner) : Prop where
  flow : inner.flows endpoint = some (.forward rule)
  notIce : inner.ice endpoint = false
  latches : rule.latch ≠ .off
  kernelNotIce : kernel.ice = 0
  kernelLatches : kernel.latchPolicy ≠ latchOff
  gate : ∀ ip, kernel.sourceAllowed (swapBytes ip) = rule.acceptedSource.accepts (.v4 ip)

/-- One datagram through both datapaths: what each decides, and their next states. -/
def lockstep (endpoint : EndpointId) (rule : ForwardRule) (state : FlowAction × Inner)
    (frame : Frame) : (Gate × Bool) × FlowAction × Inner :=
  (((state.1.admission frame).1, (state.2.admission rule (frame.arrival endpoint)).1),
    ((state.1.admission frame).2, (state.2.dispatch (frame.arrival endpoint)).2))

/-- Whether a datagram gets past the demux and the gate. -/
def reaches (rule : ForwardRule) (frame : Frame) : Bool :=
  isRtpOrRtcp frame.payload && rule.acceptedSource.accepts (.v4 frame.sourceIpv4)

/-- The latch of the kernel as one of userspace. -/
def Latched.toSource (latched : Latched) : SourceLatch SocketAddr where
  source := .v4 latched.ipv4 latched.port
  ssrc := some latched.ssrc

section Step

variable {endpoint : EndpointId} {rule : ForwardRule} {kernel : FlowAction} {inner : Inner}
  {frame : Frame}

/-- What the kernel does with a datagram of an exact frame. -/
theorem SameFlow.kernel_admission (hsame : SameFlow endpoint rule kernel inner)
    (hexact : frame.Exact) :
    kernel.admission frame =
      if reaches rule frame then
        kernel.actOn (latchDecision kernel.latched frame.sourceIpv4 frame.sourcePort
          (rtpMediaSsrc frame.payload))
      else (.drop, kernel) := by
  unfold FlowAction.admission reaches
  rw [Frame.load_one_of_exact hexact, Frame.ssrc_of_exact hexact, hsame.gate]
  cases hpayload : frame.payload with
  | nil => simp [isRtpOrRtcp]
  | cons first rest =>
    have hmedia : isRtpOrRtcp (first :: rest) = isRtpOrRtcp [first] := rfl
    simp only [List.head?_cons, Option.map_some, hsame.kernelNotIce, ne_eq, hsame.kernelLatches,
      hmedia]
    cases isRtpOrRtcp [first] with
    | false => simp
    | true =>
      cases rule.acceptedSource.accepts (.v4 frame.sourceIpv4) with
      | false => simp
      | true => simp

/-- What userspace does with it. -/
theorem SameFlow.user_admission (hsame : SameFlow endpoint rule kernel inner) (frame : Frame) :
    inner.admission rule (frame.arrival endpoint) =
      if reaches rule frame then
        let (accepted, latch) := updateLatch (inner.latched endpoint)
          (.v4 frame.sourceIpv4 frame.sourcePort) (rtpMediaSsrc frame.payload)
        (accepted, inner.setLatched endpoint latch)
      else (false, inner) := by
  have hclass := classify_eq_media_iff frame.payload
  have hip : (frame.arrival endpoint).source.ip = .v4 frame.sourceIpv4 := rfl
  have hpayload : (frame.arrival endpoint).payload = frame.payload := rfl
  have hendpoint : (frame.arrival endpoint).endpoint = endpoint := rfl
  unfold Inner.admission Inner.iceGate reaches
  rw [hip, hpayload, hendpoint]
  cases hmedia : isRtpOrRtcp frame.payload with
  | false =>
    have hother : classify frame.payload ≠ .media := by
      intro heq
      rw [hclass.mp heq] at hmedia
      exact Bool.noConfusion hmedia
    simp [hother]
  | true =>
    simp only [hclass.mpr hmedia, hsame.notIce, hsame.latches, ne_eq]
    cases rule.acceptedSource.accepts (.v4 frame.sourceIpv4) with
    | false => simp
    | true =>
      rfl

/-- A datagram leaves the flow what it is. -/
theorem SameFlow.step (hsame : SameFlow endpoint rule kernel inner) (hexact : frame.Exact) :
    SameFlow endpoint rule (kernel.admission frame).2
      (inner.dispatch (frame.arrival endpoint)).2 := by
  obtain ⟨hflows, hice, -⟩ := inner.dispatch_frame (frame.arrival endpoint)
  have hkernel : (kernel.admission frame).2 = kernel ∨
      ∃ learned, (kernel.admission frame).2 = kernel.setLatched learned := by
    rw [hsame.kernel_admission hexact]
    split
    · cases latchDecision kernel.latched frame.sourceIpv4 frame.sourcePort
        (rtpMediaSsrc frame.payload) with
      | drop => exact Or.inl rfl
      | learn learned => exact Or.inr ⟨learned, rfl⟩
      | forward => exact Or.inl rfl
    · exact Or.inl rfl
  have hflow := congrFun hflows endpoint
  have hnotIce := congrFun hice endpoint
  rcases hkernel with hkept | ⟨learned, hlearned⟩
  · rw [hkept]
    exact ⟨hflow.trans hsame.flow, hnotIce.trans hsame.notIce, hsame.latches, hsame.kernelNotIce,
      hsame.kernelLatches, hsame.gate⟩
  · rw [hlearned]
    exact ⟨hflow.trans hsame.flow, hnotIce.trans hsame.notIce, hsame.latches, hsame.kernelNotIce,
      hsame.kernelLatches, hsame.gate⟩

/-- The latch userspace is left with. -/
theorem SameFlow.latched_dispatch (hsame : SameFlow endpoint rule kernel inner) (frame : Frame) :
    (inner.dispatch (frame.arrival endpoint)).2.latched endpoint =
      if reaches rule frame then
        (updateLatch (inner.latched endpoint) (.v4 frame.sourceIpv4 frame.sourcePort)
          (rtpMediaSsrc frame.payload)).2
      else inner.latched endpoint := by
  have hflow : inner.flows (frame.arrival endpoint).endpoint = some (.forward rule) := hsame.flow
  rw [(Inner.dispatch_forward hflow).1, hsame.user_admission]
  split
  · exact if_pos rfl
  · rfl

end Step

/-! ### The run -/

/-- No datagram before a position both reaches the latch and carries an SSRC. -/
def Quiet (rule : ForwardRule) (frames : List Frame) (k : ℕ) : Prop :=
  ∀ i < k, ∀ frame, frames[i]? = some frame → reaches rule frame = true →
    rtpMediaSsrc frame.payload = none

/-- The datagrams that reach the latch come from one source, up to and including the first one that
carries an SSRC. -/
def OneSource (rule : ForwardRule) (frames : List Frame) : Prop :=
  ∀ (i j : ℕ) first second, i < j → frames[i]? = some first → frames[j]? = some second →
    reaches rule first = true → reaches rule second = true → Quiet rule frames j →
      (first.sourceIpv4, first.sourcePort) = (second.sourceIpv4, second.sourcePort)

theorem Quiet.succ {rule : ForwardRule} {frames : List Frame} {k : ℕ} {frame : Frame}
    (hquiet : Quiet rule frames k) (hframe : frames[k]? = some frame)
    (hnext : reaches rule frame = true → rtpMediaSsrc frame.payload = none) :
    Quiet rule frames (k + 1) := by
  intro i hi other hother hreaches
  by_cases hlast : i = k
  · subst hlast
    obtain rfl : frame = other := Option.some.inj (hframe.symm.trans hother)
    exact hnext hreaches
  · exact hquiet i (by omega) other hother hreaches

/-- The two latches before a position: no SSRC yet, and userspace alone is pinned, to the source of
a datagram that reached it; or the same latch in both. -/
def Phase (endpoint : EndpointId) (rule : ForwardRule) (frames : List Frame) (k : ℕ)
    (state : FlowAction × Inner) : Prop :=
  (Quiet rule frames k ∧ state.1.latched = none ∧
      (state.2.latched endpoint = none ∨
        ∃ i < k, ∃ first, frames[i]? = some first ∧ reaches rule first = true ∧
          state.2.latched endpoint =
            some { source := .v4 first.sourceIpv4 first.sourcePort, ssrc := none })) ∨
    ∃ latched, state.1.latched = some latched ∧ state.2.latched endpoint = some latched.toSource

section Run

variable {endpoint : EndpointId} {rule : ForwardRule} {kernel : FlowAction} {inner : Inner}
  {frame : Frame}

/-- A datagram that does not reach the latch is dropped by both and changes neither latch. -/
theorem SameFlow.of_not_reaches (hsame : SameFlow endpoint rule kernel inner)
    (hexact : frame.Exact) (hshort : reaches rule frame = false) :
    kernel.admission frame = (.drop, kernel) ∧
      (inner.dispatch (frame.arrival endpoint)).2.latched endpoint = inner.latched endpoint := by
  rw [hsame.kernel_admission hexact, hsame.latched_dispatch, hshort]
  exact ⟨rfl, rfl⟩

/-- An empty kernel latch forwards what reaches it, and stores what carries an SSRC. -/
theorem SameFlow.of_kernel_empty (hsame : SameFlow endpoint rule kernel inner)
    (hexact : frame.Exact) (hreaches : reaches rule frame = true) (hempty : kernel.latched = none) :
    (kernel.admission frame).1 = .accepted ∧
      (kernel.admission frame).2.latched = (rtpMediaSsrc frame.payload).map fun ssrc ↦
        { ipv4 := frame.sourceIpv4, port := frame.sourcePort, ssrc } := by
  rw [hsame.kernel_admission hexact, if_pos hreaches, hempty]
  cases rtpMediaSsrc frame.payload with
  | none => exact ⟨rfl, hempty⟩
  | some ssrc => exact ⟨rfl, rfl⟩

/-- With the same latch the two decide alike, and are left with the same latch. -/
theorem SameFlow.of_same_latch (hsame : SameFlow endpoint rule kernel inner)
    (hexact : frame.Exact) (hreaches : reaches rule frame = true) {latched : Latched}
    (hkernel : kernel.latched = some latched)
    (huser : inner.latched endpoint = some latched.toSource) :
    ((kernel.admission frame).1 = .accepted →
        (inner.admission rule (frame.arrival endpoint)).1 = true) ∧
      ∃ next, (kernel.admission frame).2.latched = some next ∧
        (inner.dispatch (frame.arrival endpoint)).2.latched endpoint = some next.toSource := by
  have hupdate := updateLatch_pinned (SocketAddr.v4 latched.ipv4 latched.port)
    (.v4 frame.sourceIpv4 frame.sourcePort) latched.ssrc (rtpMediaSsrc frame.payload)
  rw [hsame.kernel_admission hexact, hsame.latched_dispatch, hsame.user_admission,
    if_pos hreaches, if_pos hreaches, if_pos hreaches, hkernel, huser, latchDecision_some,
    Latched.toSource, hupdate]
  by_cases hsource : (latched.ipv4, latched.port) = (frame.sourceIpv4, frame.sourcePort)
  · obtain ⟨hip, hport⟩ := Prod.mk.inj hsource
    rw [if_pos hsource, if_pos (Or.inl (by rw [hip, hport]))]
    refine ⟨fun _ ↦ rfl, latched, hkernel, ?_⟩
    rw [← hip, ← hport]
    rfl
  · have hother : ¬ SocketAddr.v4 latched.ipv4 latched.port =
        .v4 frame.sourceIpv4 frame.sourcePort := by
      intro heq
      obtain ⟨hip, hport⟩ := SocketAddr.v4.inj heq
      exact hsource (by rw [hip, hport])
    rw [if_neg hsource]
    by_cases hssrc : rtpMediaSsrc frame.payload = some latched.ssrc
    · rw [if_pos hssrc, if_pos (Or.inr hssrc)]
      exact ⟨fun _ ↦ rfl, _, rfl, rfl⟩
    · rw [if_neg hssrc, if_neg (fun htaken ↦ htaken.elim hother hssrc)]
      exact ⟨nofun, latched, hkernel, rfl⟩

/-- A latch of userspace without an SSRC, or none, takes a datagram from its source. -/
theorem SameFlow.of_user_source (hsame : SameFlow endpoint rule kernel inner)
    (hreaches : reaches rule frame = true)
    (huser : inner.latched endpoint = none ∨ inner.latched endpoint =
      some { source := .v4 frame.sourceIpv4 frame.sourcePort, ssrc := none }) :
    (inner.admission rule (frame.arrival endpoint)).1 = true ∧
      (inner.dispatch (frame.arrival endpoint)).2.latched endpoint =
        some { source := .v4 frame.sourceIpv4 frame.sourcePort
               ssrc := rtpMediaSsrc frame.payload } := by
  rw [hsame.latched_dispatch, hsame.user_admission, if_pos hreaches, if_pos hreaches]
  rcases huser with hnone | hsource
  · rw [hnone]
    exact ⟨rfl, rfl⟩
  · rw [hsource, updateLatch_unpinned, if_pos rfl]
    exact ⟨rfl, rfl⟩

/-- One datagram from a phase of the run: userspace accepts what the kernel forwards, and the run
stays in its phases. Assumes: one source up to the first SSRC. -/
theorem Phase.step {frames : List Frame} {k : ℕ} (hsame : SameFlow endpoint rule kernel inner)
    (hexact : frame.Exact) (hone : OneSource rule frames) (hframe : frames[k]? = some frame)
    (hphase : Phase endpoint rule frames k (kernel, inner)) :
    ((kernel.admission frame).1 = .accepted →
        (inner.admission rule (frame.arrival endpoint)).1 = true) ∧
      Phase endpoint rule frames (k + 1) (lockstep endpoint rule (kernel, inner) frame).2 := by
  cases hreaches : reaches rule frame with
  | false =>
    obtain ⟨hkernel, huser⟩ := hsame.of_not_reaches hexact hreaches
    refine ⟨?_, ?_⟩
    · rw [hkernel]
      exact nofun
    · simp only [lockstep, Phase, hkernel, huser]
      refine hphase.imp ?_ id
      rintro ⟨hquiet, hempty, hpinned⟩
      refine ⟨hquiet.succ hframe (by simp [hreaches]), hempty, hpinned.imp_right ?_⟩
      rintro ⟨i, hi, hrest⟩
      exact ⟨i, Nat.lt_succ_of_lt hi, hrest⟩
  | true =>
    rcases hphase with ⟨hquiet, hempty, hpinned⟩ | ⟨latched, hkernel, huser⟩
    · -- whoever userspace is pinned to is the source of this datagram too
      have hsource : inner.latched endpoint = none ∨ inner.latched endpoint =
          some { source := .v4 frame.sourceIpv4 frame.sourcePort, ssrc := none } := by
        refine hpinned.imp_right ?_
        rintro ⟨i, hi, first, hfirst, hreached, hlatched⟩
        obtain ⟨hip, hport⟩ :=
          Prod.mk.inj (hone i k first frame hi hfirst hframe hreached hreaches hquiet)
        rw [hlatched, hip, hport]
      obtain ⟨haccepted, huser⟩ := hsame.of_user_source hreaches hsource
      obtain ⟨-, hkernel⟩ := hsame.of_kernel_empty hexact hreaches hempty
      refine ⟨fun _ ↦ haccepted, ?_⟩
      simp only [lockstep, Phase, hkernel, huser]
      cases hssrc : rtpMediaSsrc frame.payload with
      | none =>
        exact Or.inl ⟨hquiet.succ hframe fun _ ↦ hssrc, rfl,
          Or.inr ⟨k, Nat.lt_succ_self k, frame, hframe, hreaches, rfl⟩⟩
      | some ssrc => exact Or.inr ⟨_, rfl, rfl⟩
    · obtain ⟨hnarrow, next, hnext, hnext'⟩ := hsame.of_same_latch hexact hreaches hkernel huser
      exact ⟨hnarrow, Or.inr ⟨next, hnext, hnext'⟩⟩

/-- Before every position of a run the flow is the same in both datapaths. -/
theorem sameFlow_run (hsame : SameFlow endpoint rule kernel inner) {frames : List Frame}
    (hexact : ∀ frame ∈ frames, frame.Exact) {k : ℕ} (hk : k ≤ frames.length) :
    let state := final (lockstep endpoint rule) (kernel, inner) (frames.take k)
    SameFlow endpoint rule state.1 state.2 := by
  refine final_take_induction
    (fun _ (state : FlowAction × Inner) ↦ SameFlow endpoint rule state.1 state.2) hsame ?_ hk
  intro position frame hframe hstate
  exact hstate.step (hexact frame (List.mem_of_getElem? hframe))

/-- Userspace is pinned to every source that has reached it so far, and the kernel to none. -/
def Pinned (endpoint : EndpointId) (rule : ForwardRule) (frames : List Frame) (k : ℕ)
    (state : FlowAction × Inner) : Prop :=
  state.1.latched = none ∧
    (state.2.latched endpoint = none ∨
      ∃ source, state.2.latched endpoint = some { source, ssrc := none }) ∧
    ∀ i < k, ∀ first, frames[i]? = some first → reaches rule first = true →
      state.2.latched endpoint =
        some { source := .v4 first.sourceIpv4 first.sourcePort, ssrc := none }

/-- What userspace accepts while it holds no SSRC comes from the source it is pinned to. -/
theorem SameFlow.source_of_accepted (hsame : SameFlow endpoint rule kernel inner)
    (hreaches : reaches rule frame = true) {source : SocketAddr}
    (huser : inner.latched endpoint = some { source, ssrc := none })
    (haccepted : (inner.admission rule (frame.arrival endpoint)).1 = true) :
    source = .v4 frame.sourceIpv4 frame.sourcePort := by
  by_contra hother
  rw [hsame.user_admission, if_pos hreaches, huser, updateLatch_unpinned,
    if_neg hother] at haccepted
  exact nomatch haccepted

/-- One datagram without an SSRC that userspace accepts if the kernel forwards it. -/
theorem Pinned.step {frames : List Frame} {k : ℕ} (hsame : SameFlow endpoint rule kernel inner)
    (hexact : frame.Exact) (hframe : frames[k]? = some frame)
    (hquiet : reaches rule frame = true → rtpMediaSsrc frame.payload = none)
    (hnarrow : (kernel.admission frame).1 = .accepted →
      (inner.admission rule (frame.arrival endpoint)).1 = true)
    (hpinned : Pinned endpoint rule frames k (kernel, inner)) :
    Pinned endpoint rule frames (k + 1) (lockstep endpoint rule (kernel, inner) frame).2 := by
  obtain ⟨hempty, huser, hseen⟩ := hpinned
  cases hreaches : reaches rule frame with
  | false =>
    obtain ⟨hkernel, hkept⟩ := hsame.of_not_reaches hexact hreaches
    simp only [lockstep, Pinned, hkernel, hkept]
    refine ⟨hempty, huser, ?_⟩
    intro i hi first hfirst hreached
    by_cases hlast : i = k
    · subst hlast
      obtain rfl : frame = first := Option.some.inj (hframe.symm.trans hfirst)
      exact absurd hreached (by simp [hreaches])
    · exact hseen i (by omega) first hfirst hreached
  | true =>
    obtain ⟨hforwarded, hkernel⟩ := hsame.of_kernel_empty hexact hreaches hempty
    have haccepted := hnarrow hforwarded
    have hsource : inner.latched endpoint = none ∨ inner.latched endpoint =
        some { source := .v4 frame.sourceIpv4 frame.sourcePort, ssrc := none } := by
      refine huser.imp_right ?_
      rintro ⟨source, hlatched⟩
      rw [← hsame.source_of_accepted hreaches hlatched haccepted]
      exact hlatched
    have hnext := (hsame.of_user_source hreaches hsource).2
    rw [hquiet hreaches] at hkernel hnext
    refine ⟨hkernel, Or.inr ⟨_, hnext⟩, ?_⟩
    intro i hi first hfirst hreached
    by_cases hlast : i = k
    · subst hlast
      obtain rfl : frame = first := Option.some.inj (hframe.symm.trans hfirst)
      exact hnext
    · have hlatched := hseen i (by omega) first hfirst hreached
      rw [hsame.source_of_accepted hreaches hlatched haccepted]
      exact hnext

/-- When the kernel's latch narrows the userspace one. Assumes: a latching flow in both datapaths
with the same gate and both latches empty, and frames whose payload the program does not read past.
Every datagram that the kernel forwards is one that userspace accepts if and only if the datagrams
that reach the latch come from one source, up to and including the first one with an SSRC. -/
theorem kernel_narrows_iff (hsame : SameFlow endpoint rule kernel inner)
    (hkernel : kernel.latched = none) (huser : inner.latched endpoint = none)
    {frames : List Frame} (hexact : ∀ frame ∈ frames, frame.Exact) :
    (∀ (k : ℕ) accepted, (outputs (lockstep endpoint rule) (kernel, inner) frames)[k]? =
        some (.accepted, accepted) → accepted = true) ↔ OneSource rule frames := by
  have hat : ∀ (k : ℕ) frame, frames[k]? = some frame →
      k < frames.length ∧ frame.Exact := by
    intro k frame hframe
    exact ⟨(List.getElem?_eq_some_iff.mp hframe).1, hexact frame (List.mem_of_getElem? hframe)⟩
  constructor
  · intro hnarrow i j first second hij hfirst hsecond hreached hreaches hquiet
    have hj := (hat j second hsecond).1
    have hnarrowAt : ∀ (k : ℕ) frame, frames[k]? = some frame →
        let state := final (lockstep endpoint rule) (kernel, inner) (frames.take k)
        (state.1.admission frame).1 = .accepted →
          (state.2.admission rule (frame.arrival endpoint)).1 = true := by
      intro k frame hframe state hforwarded
      apply hnarrow k
      rw [getElem?_outputs_of_eq _ hframe]
      exact congrArg some (Prod.ext hforwarded rfl)
    have hpinned : ∀ k ≤ j, Pinned endpoint rule frames k
        (final (lockstep endpoint rule) (kernel, inner) (frames.take k)) := by
      intro k hk
      induction k with
      | zero => exact ⟨hkernel, Or.inl huser, fun _ hi ↦ absurd hi (Nat.not_lt_zero _)⟩
      | succ k ih =>
        have hlt : k < frames.length := by omega
        have hframe : frames[k]? = some frames[k] := List.getElem?_eq_getElem hlt
        rw [final_take_succ _ hframe]
        exact (ih (by omega)).step (sameFlow_run hsame hexact hlt.le) (hat k _ hframe).2 hframe
          (hquiet k (by omega) _ hframe) (hnarrowAt k _ hframe)
    obtain ⟨hempty, -, hseen⟩ := hpinned j le_rfl
    have hstate := sameFlow_run hsame hexact hj.le
    have hforwarded := (hstate.of_kernel_empty (hat j second hsecond).2 hreaches hempty).1
    have hsource := hstate.source_of_accepted hreaches (hseen i hij first hfirst hreached)
      (hnarrowAt j second hsecond hforwarded)
    obtain ⟨hip, hport⟩ := SocketAddr.v4.inj hsource
    rw [hip, hport]
  · intro hone k accepted houtput
    have hphase : ∀ k ≤ frames.length, Phase endpoint rule frames k
        (final (lockstep endpoint rule) (kernel, inner) (frames.take k)) := by
      intro k hk
      refine final_take_induction (Phase endpoint rule frames) ?_ ?_ hk
      · exact Or.inl ⟨fun _ hi ↦ absurd hi (Nat.not_lt_zero _), hkernel, Or.inl huser⟩
      · intro position frame hframe hstate
        obtain ⟨hlt, hframed⟩ := hat position frame hframe
        exact (hstate.step (sameFlow_run hsame hexact hlt.le) hframed hone hframe).2
    rw [getElem?_outputs] at houtput
    obtain ⟨frame, hframe, hresult⟩ := Option.map_eq_some_iff.mp houtput
    obtain ⟨hforwarded, rfl⟩ := Prod.mk.inj hresult
    obtain ⟨hlt, hframed⟩ := hat k frame hframe
    exact ((hphase k hlt.le).step (sameFlow_run hsame hexact hlt.le) hframed hone hframe).1
      hforwarded

end Run

/-! ### Where the kernel forwards more -/

/-- The rule of the sample flow in the kernel's map. -/
def openKernel : FlowAction where
  latchPolicy := 2
  sourceKind := sourceAny
  sourcePrefixLen := 0
  sourceIpv4 := 0
  latchedIpv4 := 0
  latchedSsrc := 0
  latchedPort := 0
  latchValid := 0
  ice := 0

theorem sameFlow_open : SameFlow 1 openRule openKernel openFlow :=
  ⟨rfl, rfl, by decide, rfl, by decide, fun _ ↦ rfl⟩

/-- Frames of a host that end with their payload. -/
def reportFrame (ip : BitVec 32) : Frame := ⟨ip, 4000, emptyRtcp, []⟩

def rtpFrame (ip : BitVec 32) (ssrc : ℕ) : Frame := ⟨ip, 4000, emptyRtp ssrc, []⟩

/-- With a report and RTP of one party, what the kernel forwards userspace accepts. -/
theorem kernel_narrows_one_party :
    let frames := [reportFrame 1, rtpFrame 1 7, rtpFrame 2 8]
    OneSource openRule frames ∧
      ∀ (k : ℕ) accepted, (outputs (lockstep 1 openRule) (openKernel, openFlow) frames)[k]? =
        some (.accepted, accepted) → accepted = true := by
  intro frames
  have hone : OneSource openRule frames := by
    intro i j first second hij hfirst hsecond _ _ hquiet
    match i, j with
    | 0, 1 =>
      obtain rfl : reportFrame 1 = first := Option.some.inj hfirst
      obtain rfl : rtpFrame 1 7 = second := Option.some.inj hsecond
      rfl
    | _, 2 => exact absurd (hquiet 1 (by decide) (rtpFrame 1 7) rfl (by decide)) (by decide)
    | _, _ + 3 => exact nomatch hsecond
    | _ + 1, 1 => omega
  have hexact : ∀ frame ∈ frames, frame.Exact := by
    intro frame hframe
    apply Or.inr
    simp only [frames, List.mem_cons, List.not_mem_nil, or_false] at hframe
    rcases hframe with rfl | rfl | rfl
    · rfl
    · rfl
    · rfl
  exact ⟨hone, (kernel_narrows_iff sameFlow_open rfl rfl hexact).mpr hone⟩

/-- The kernel forwards what userspace rejects: the RTP of another host after a report of the first
one, which only userspace latches on; and the RTP of another host with SSRC zero, after a short
datagram behind which the program has read the padding of the frame for an SSRC. -/
theorem kernel_forwards_more :
    SameFlow 1 openRule openKernel openFlow ∧ openKernel.latched = none ∧
      openFlow.latched 1 = none ∧
      outputs (lockstep 1 openRule) (openKernel, openFlow) [reportFrame 1, rtpFrame 2 7] =
        [(.accepted, true), (.accepted, false)] ∧
      outputs (lockstep 1 openRule) (openKernel, openFlow)
          [⟨1, 4000, [0x80, 0, 0, 1, 0, 0, 0, 0], List.replicate 10 0⟩, rtpFrame 2 0] =
        [(.accepted, true), (.accepted, false)] := by
  exact ⟨sameFlow_open, rfl, rfl, by decide, by decide⟩

end SiphonRtp.Xdp
