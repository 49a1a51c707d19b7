import SiphonRtp.Datapath.IcePath

/-!
# Latches that a gate no longer accepts

A latch outlives the rule or the ICE session that made it. `Sound` says that no forwarding endpoint
without credentials is latched on a source its own gate refuses. Datagrams and flow installs keep it
(`sound_receive`, `sound_installFlow`): a plain latch is only learned through the gate, and a
reinstalled rule drops the latch it refuses. Removing the credentials does not look at the latch
that a check left behind, so along a run the property holds exactly when each removal happens to
find a latch its rule accepts (`sound_iff_retires`). `credentials_removed_latch_stuck` is a run
where it does not.
-/

set_option autoImplicit false

namespace SiphonRtp.Datapath

open Machine Stun

/-- An update keeps the latch or puts the source of the datagram in it. -/
theorem updateLatch_cases {Source : Type*} [DecidableEq Source]
    (current : Option (SourceLatch Source)) (source : Source) (ssrc : Option UInt32) :
    (updateLatch current source ssrc).2 = current ∨
      (updateLatch current source ssrc).2 = some ⟨source, ssrc⟩ := by
  unfold updateLatch sourceLatchVerdict
  cases current with
  | none => exact Or.inr rfl
  | some latched =>
    dsimp only
    by_cases hsame : latched.source = source
    · rw [if_pos hsame]
      by_cases hlearn : (latched.ssrc.isNone && ssrc.isSome) = true
      · rw [if_pos hlearn]
        exact Or.inr rfl
      · rw [if_neg hlearn]
        exact Or.inl rfl
    · rw [if_neg hsame]
      cases latched.ssrc with
      | none => exact Or.inl rfl
      | some known =>
        cases ssrc with
        | none => exact Or.inl rfl
        | some seen =>
          dsimp only
          by_cases hknown : known = seen
          · rw [if_pos hknown]
            exact Or.inr rfl
          · rw [if_neg hknown]
            exact Or.inl rfl

namespace Backend

variable {digests : Digests} {backend : Backend} {endpoint : EndpointId}

/-- No forwarding endpoint without credentials is latched on a source its rule refuses. -/
def Sound (backend : Backend) : Prop :=
  ∀ endpoint rule latch, backend.flows endpoint = some (.forward rule) →
    backend.ice endpoint = none → backend.latched endpoint = some latch →
      rule.acceptedSource.accepts latch.source.ip = true

theorem sound_of_fresh (hfresh : backend.Fresh) : backend.Sound := by
  intro endpoint rule latch hflow _ _
  rw [(hfresh endpoint).1] at hflow
  exact nomatch hflow

/-! ### Datagrams and flow installs -/

/-- A datagram latches a plain endpoint on nothing but a source its gate accepts. -/
theorem sound_receive (hsound : backend.Sound) (arrival : Arrival) :
    (backend.receive digests arrival).2.Sound := by
  intro endpoint rule latch hflow hice hlatch
  obtain ⟨hflows, hices⟩ := receive_frame digests backend arrival
  rw [hflows] at hflow
  rw [hices] at hice
  rcases receive_cases digests backend arrival with
    ⟨_, _, hsame | ⟨source, payload, hdispatched⟩⟩ |
    ⟨config, source, payload, priority, hconfig, _, _, _, hselected⟩
  · rw [hsame] at hlatch
    exact hsound endpoint rule latch hflow hice hlatch
  · rw [hdispatched] at hlatch
    have hinner : backend.toInner.flows endpoint = some (.forward rule) := hflow
    rcases latched_dispatch_cases hinner ⟨arrival.endpoint, source, payload⟩ with
      hkept | ⟨_, _, haccepted, hupdated⟩
    · rw [hkept] at hlatch
      exact hsound endpoint rule latch hflow hice hlatch
    · rw [hupdated] at hlatch
      rcases updateLatch_cases (backend.latched endpoint) source (rtpMediaSsrc payload) with
        hcurrent | hlearned
      · exact hsound endpoint rule latch hflow hice (hcurrent.symm.trans hlatch)
      · obtain rfl : ⟨source, rtpMediaSsrc payload⟩ = latch :=
          Option.some.inj (hlearned.symm.trans hlatch)
        exact haccepted
  · -- a check selects on an endpoint with credentials, so on another one
    have hne : endpoint ≠ arrival.endpoint := by
      rintro rfl
      exact nomatch hice.symm.trans hconfig
    split_ifs at hselected
    · rw [hselected.1, setAt_of_ne _ hne _] at hlatch
      exact hsound endpoint rule latch hflow hice hlatch
    · rw [hselected.1] at hlatch
      exact hsound endpoint rule latch hflow hice hlatch

/-- Installing a flow creates no latch, and on a plain endpoint it keeps only one that the new rule
accepts. -/
theorem latched_installFlow {target : EndpointId} {action : FlowAction}
    {latch : SourceLatch SocketAddr}
    (hlatch : (backend.installFlow target action).latched endpoint = some latch) :
    backend.latched endpoint = some latch ∧
      (backend.endpoints target = true → endpoint = target → backend.ice endpoint = none →
        ∀ rule, action = .forward rule →
          rule.acceptedSource.accepts latch.source.ip = true) := by
  unfold installFlow at hlatch
  split_ifs at hlatch with hunknown
  · refine ⟨hlatch, fun hknown ↦ ?_⟩
    rw [hknown] at hunknown
    exact nomatch hunknown
  cases action with
  | redirect => exact ⟨hlatch, fun _ _ _ _ haction ↦ nomatch haction⟩
  | drop => exact ⟨hlatch, fun _ _ _ _ haction ↦ nomatch haction⟩
  | forward rule =>
    replace hlatch : (if peerReplaced (backend.flows target) rule = true ∧
        backend.ice rule.outEndpoint = none then
          setAt (backend.keptLatches target rule) rule.outEndpoint none
        else backend.keptLatches target rule) endpoint = some latch := hlatch
    -- that the peer's latch may go does not matter here
    have hkept : backend.keptLatches target rule endpoint = some latch := by
      split_ifs at hlatch
      · by_cases hout : endpoint = rule.outEndpoint
        · rw [hout, setAt_self] at hlatch
          exact nomatch hlatch
        · rwa [setAt_of_ne _ hout _] at hlatch
      · exact hlatch
    unfold keptLatches at hkept
    by_cases hplain : backend.ice target = none
    · rw [if_pos hplain] at hkept
      by_cases htarget : endpoint = target
      · subst htarget
        rw [setAt_self, Option.filter_eq_some_iff] at hkept
        refine ⟨hkept.1, fun _ _ _ other haction ↦ ?_⟩
        obtain rfl := FlowAction.forward.inj haction
        exact hkept.2
      · rw [setAt_of_ne _ htarget _] at hkept
        exact ⟨hkept, fun _ hequal ↦ absurd hequal htarget⟩
    · rw [if_neg hplain] at hkept
      refine ⟨hkept, fun _ htarget hice ↦ ?_⟩
      subst htarget
      exact absurd hice hplain

theorem flows_installFlow (backend : Backend) (target : EndpointId) (action : FlowAction) :
    (backend.installFlow target action).flows =
      if backend.endpoints target = true then setAt backend.flows target (some action)
      else backend.flows := by
  unfold installFlow
  cases hknown : backend.endpoints target with
  | false => rfl
  | true =>
    cases action with
    | redirect => rfl
    | drop => rfl
    | forward rule => rfl

/-- A reinstalled rule leaves no latch that it refuses. -/
theorem sound_installFlow (hsound : backend.Sound) (target : EndpointId) (action : FlowAction) :
    (backend.installFlow target action).Sound := by
  intro endpoint rule latch hflow hice hlatch
  rw [(@installFlow_frame endpoint backend target action).1] at hice
  obtain ⟨hbefore, haccepted⟩ := latched_installFlow hlatch
  rw [flows_installFlow] at hflow
  by_cases hknown : backend.endpoints target = true
  swap
  · rw [if_neg hknown] at hflow
    exact hsound endpoint rule latch hflow hice hbefore
  rw [if_pos hknown] at hflow
  by_cases htarget : endpoint = target
  · subst htarget
    rw [setAt_self] at hflow
    exact haccepted hknown rfl hice rule (Option.some.inj hflow)
  · rw [setAt_of_ne _ htarget _] at hflow
    exact hsound endpoint rule latch hflow hice hbefore

/-! ### Credentials removed -/

/-- A call that removes credentials finds a latch that the endpoint's rule accepts, or no latch or
no rule. -/
def Retires (backend : Backend) (operation : Operation) : Prop :=
  ∀ endpoint rule latch, operation = .setIce endpoint none →
    backend.flows endpoint = some (.forward rule) → backend.latched endpoint = some latch →
      rule.acceptedSource.accepts latch.source.ip = true

theorem retires_of_ne {operation : Operation}
    (hother : ∀ endpoint, operation ≠ .setIce endpoint none) : backend.Retires operation :=
  fun endpoint _ _ hremoved ↦ absurd hremoved (hother endpoint)

/-- Credentials installed on an endpoint take it out of the property. -/
theorem sound_of_credentials (hsound : backend.Sound) {after : Backend} {target : EndpointId}
    {config : IceConfig} (hflows : after.flows = backend.flows)
    (hlatched : after.latched = backend.latched)
    (hice : after.ice = setAt backend.ice target (some config)) : after.Sound := by
  intro endpoint rule latch hflow hoff hlatch
  rw [hice] at hoff
  by_cases htarget : endpoint = target
  · rw [htarget, setAt_self] at hoff
    exact nomatch hoff
  · rw [setAt_of_ne _ htarget _] at hoff
    exact hsound endpoint rule latch (hflows ▸ hflow) hoff (hlatched ▸ hlatch)

/-- One call keeps the property exactly when it retires its latch. Assumes: it adopts no source. -/
theorem sound_step_iff (hsound : backend.Sound) {operation : Operation}
    (hadopt : ∀ target source, operation ≠ .adoptSource target source) :
    (backend.step digests operation).2.Sound ↔ backend.Retires operation := by
  cases operation with
  | receive arrival =>
    exact ⟨fun _ ↦ retires_of_ne fun _ ↦ Operation.noConfusion,
      fun _ ↦ sound_receive hsound arrival⟩
  | installFlow target action =>
    exact ⟨fun _ ↦ retires_of_ne fun _ ↦ Operation.noConfusion,
      fun _ ↦ sound_installFlow hsound target action⟩
  | setIce target config =>
    cases config with
    | some config =>
      refine ⟨fun _ ↦ retires_of_ne ?_, fun _ ↦ sound_of_credentials hsound rfl rfl rfl⟩
      intro endpoint hremoved
      exact nomatch (Operation.setIce.inj hremoved).2
    | none =>
      constructor
      · intro hafter endpoint rule latch hremoved hflow hlatch
        obtain ⟨rfl, -⟩ := Operation.setIce.inj hremoved
        exact hafter target rule latch hflow (setAt_self _ _ _) hlatch
      · intro hretires endpoint rule latch hflow hice hlatch
        by_cases htarget : endpoint = target
        · subst htarget
          exact hretires endpoint rule latch rfl hflow hlatch
        · have hbefore := (setAt_of_ne backend.ice htarget none).symm.trans hice
          exact hsound endpoint rule latch hflow hbefore hlatch
  | setIceAgent target config mode =>
    exact ⟨fun _ ↦ retires_of_ne fun _ ↦ Operation.noConfusion,
      fun _ ↦ sound_of_credentials hsound rfl rfl rfl⟩
  | adoptSource target source => exact absurd rfl (hadopt target source)
  | setTurnRelay target relay =>
    exact ⟨fun _ ↦ retires_of_ne fun _ ↦ Operation.noConfusion, fun _ ↦ hsound⟩

/-- When no plain endpoint keeps a latch that its gate refuses. Assumes: a run from a fresh backend
that adopts no source. Before every operation each plain forwarding endpoint is unlatched or latched
on a source its gate lets pass, if and only if each call that removes credentials retires the latch
it finds. -/
theorem sound_iff_retires (hfresh : backend.Fresh) {operations : List Operation}
    (hadopt : ∀ operation ∈ operations, ∀ target source,
      operation ≠ .adoptSource target source) :
    (∀ k ≤ operations.length, (before digests backend operations k).Sound) ↔
      ∀ k operation, operations[k]? = some operation →
        (before digests backend operations k).Retires operation := by
  constructor
  · intro hsound k operation hoperation
    have hk : k < operations.length := (List.getElem?_eq_some_iff.mp hoperation).1
    have hafter := hsound (k + 1) hk
    rw [before, final_take_succ (step digests) hoperation backend] at hafter
    exact (sound_step_iff (hsound k hk.le)
      (hadopt operation (List.mem_of_getElem? hoperation))).mp hafter
  · intro hretires k hk
    refine final_take_induction (fun _ ↦ Sound) (sound_of_fresh hfresh) ?_ hk
    intro k operation hoperation hsound
    exact (sound_step_iff hsound (hadopt operation (List.mem_of_getElem? hoperation))).mpr
      (hretires k operation hoperation)

/-! ### A leg that gives up ICE -/

/-- A rule that only accepts the address of `otherSource`. -/
def strictRule : ForwardRule := { openRule with acceptedSource := .exact otherSource.ip }

/-- A leg that drops its credentials after a check of the source its rule accepts stays sound. -/
theorem accepted_latch_retired :
    let operations := [.installFlow 1 (.forward strictRule), .setIce 1 (some sampleConfig),
      sampleCheck 7 otherSource, .setIce 1 none]
    (∀ k operation, operations[k]? = some operation →
        (before zeroDigests idle operations k).Retires operation) ∧
      ∀ k ≤ 4, (before zeroDigests idle operations k).Sound := by
  intro operations
  have hretires : ∀ k operation, operations[k]? = some operation →
      (before zeroDigests idle operations k).Retires operation := by
    intro k operation hoperation endpoint rule latch hremoved hflow hlatch
    have hk : k < 4 := (List.getElem?_eq_some_iff.mp hoperation).1
    obtain rfl | rfl | rfl | rfl : k = 0 ∨ k = 1 ∨ k = 2 ∨ k = 3 := by omega
    · exact nomatch (Option.some.inj hoperation).trans hremoved
    · exact nomatch (Option.some.inj hoperation).trans hremoved
    · exact nomatch (Option.some.inj hoperation).trans hremoved
    · obtain ⟨rfl, -⟩ := Operation.setIce.inj ((Option.some.inj hoperation).trans hremoved)
      have hrule : some (FlowAction.forward strictRule) = some (.forward rule) := hflow
      obtain rfl := FlowAction.forward.inj (Option.some.inj hrule)
      have hlatched : (before zeroDigests idle operations 3).latched 1 =
          some ⟨otherSource, none⟩ := by decide
      obtain rfl := Option.some.inj (hlatched.symm.trans hlatch)
      decide
  have hadopt : ∀ operation ∈ operations, ∀ target source,
      operation ≠ .adoptSource target source := by
    intro operation hoperation target source hadopted
    subst hadopted
    simp [operations, sampleCheck] at hoperation
  exact ⟨hretires, (sound_iff_retires fresh_idle hadopt).mpr hretires⟩

/-- A leg whose check came from another source keeps that source when it drops its credentials: the
rule refuses it, and everything the accepted source sends is dropped. -/
theorem credentials_removed_latch_stuck :
    let operations := [.installFlow 1 (.forward strictRule), .setIce 1 (some sampleConfig),
      sampleCheck 7 partySource, .setIce 1 none]
    let after := final (step zeroDigests) idle operations
    after.flows 1 = some (.forward strictRule) ∧ after.ice 1 = none ∧
      after.latched 1 = some ⟨partySource, none⟩ ∧
      strictRule.acceptedSource.accepts partySource.ip = false ∧
      (after.receive zeroDigests ⟨1, otherSource, emptyRtp 1⟩).1 = .dispatched .dropped := by
  decide

end Backend

end SiphonRtp.Datapath
