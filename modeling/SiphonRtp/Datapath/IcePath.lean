import SiphonRtp.Datapath.Backend
import SiphonRtp.Datapath.LatchHijack

/-!
# Where the media path of an ICE endpoint comes from

On an endpoint with ICE credentials only two things write the latch its gate reads: a check that
authenticates under the credentials of the moment and nominates, and `adopt_source`
(`latched_step_of_ice`). Turning ICE on leaves the latch as it was (`latched_step_of_turnedOn`), and
so does a restart with new credentials. `ice_source_authenticated` follows: with no latch when ICE
was turned on, whatever source the gate accepts was recorded in one of the two ways since then.
`restart_keeps_source` is why the recording may belong to earlier credentials of the same ICE
period.
-/

set_option autoImplicit false

namespace SiphonRtp.Datapath

open Machine Stun

/-! ### Media on an ICE endpoint -/

/-- With credentials installed no datagram that reaches the flow moves the latch. -/
theorem latched_dispatch_of_ice {inner : Inner} {endpoint : EndpointId}
    (hice : inner.ice endpoint = true) (arrival : Arrival) :
    (inner.dispatch arrival).2.latched endpoint = inner.latched endpoint := by
  obtain ⟨_, _, hother⟩ := inner.dispatch_frame arrival
  by_cases hendpoint : endpoint = arrival.endpoint
  swap
  · exact hother endpoint hendpoint
  subst hendpoint
  cases hflow : inner.flows arrival.endpoint with
  | none => simp [Inner.dispatch, hflow]
  | some action =>
    cases action with
    | drop => simp [Inner.dispatch, hflow]
    | redirect =>
      unfold Inner.dispatch
      rw [hflow]
      split_ifs
      · rfl
      · rfl
    | forward rule =>
      rw [(Inner.dispatch_forward hflow).1]
      have hgate : inner.iceGate arrival.endpoint arrival.source ≠ .notIce := by
        unfold Inner.iceGate
        rw [hice, if_neg (by decide)]
        cases inner.latched arrival.endpoint with
        | none => exact IceGate.noConfusion
        | some latch =>
          dsimp only
          split_ifs
          · exact IceGate.noConfusion
          · exact IceGate.noConfusion
      unfold Inner.admission
      by_cases hmedia : classify arrival.payload ≠ .media
      · rw [if_pos hmedia]
      rw [if_neg hmedia]
      cases hverdict : inner.iceGate arrival.endpoint arrival.source with
      | notIce => exact absurd hverdict hgate
      | accept => rfl
      | reject => rfl

namespace Backend

variable {digests : Digests} {backend : Backend} {endpoint : EndpointId}

/-! ### What a call does to credentials and latches -/

/-- Installing a flow leaves the credentials and the latches of ICE endpoints alone. -/
theorem installFlow_frame (backend : Backend) (target : EndpointId) (action : FlowAction) :
    (backend.installFlow target action).ice = backend.ice ∧
      (backend.ice endpoint ≠ none →
        (backend.installFlow target action).latched endpoint = backend.latched endpoint) := by
  unfold installFlow
  split_ifs
  · exact ⟨rfl, fun _ ↦ rfl⟩
  cases action with
  | redirect => exact ⟨rfl, fun _ ↦ rfl⟩
  | drop => exact ⟨rfl, fun _ ↦ rfl⟩
  | forward rule =>
    refine ⟨rfl, fun hice ↦ ?_⟩
    have hkept : backend.keptLatches target rule endpoint = backend.latched endpoint := by
      unfold keptLatches
      split_ifs with htarget
      · have hne : endpoint ≠ target := by
          rintro rfl
          exact hice htarget
        exact setAt_of_ne _ hne _
      · rfl
    show (if _ then setAt _ _ _ else backend.keptLatches target rule) endpoint = _
    by_cases hreplaced : peerReplaced (backend.flows target) rule = true ∧
        backend.ice rule.outEndpoint = none
    · have hne : endpoint ≠ rule.outEndpoint := by
        rintro rfl
        exact hice hreplaced.2
      rw [if_pos hreplaced, setAt_of_ne _ hne _]
      exact hkept
    · rw [if_neg hreplaced]
      exact hkept

/-- A source is recorded for an endpoint by `adopt_source`, or by a datagram that carries a check of
that source which authenticates under the credentials installed and nominates. -/
def Records (digests : Digests) (backend : Backend) (operation : Operation)
    (endpoint : EndpointId) (source : SocketAddr) : Prop :=
  match operation with
  | .adoptSource target adopted => target = endpoint ∧ adopted = source
  | .receive arrival => arrival.endpoint = endpoint ∧ ∃ config payload priority,
      backend.ice endpoint = some config ∧
      unwrapped (backend.turnRelay endpoint) arrival.source arrival.payload =
        some (source, payload) ∧
      Nominates digests config payload priority
  | _ => False

/-- With credentials installed, a call leaves the latch or records a source in it. -/
theorem latched_step_of_ice (hice : backend.ice endpoint ≠ none) (operation : Operation) :
    (backend.step digests operation).2.latched endpoint = backend.latched endpoint ∨
      ∃ source, Records digests backend operation endpoint source ∧
        (backend.step digests operation).2.latched endpoint = some ⟨source, none⟩ := by
  cases operation with
  | receive arrival =>
    show (backend.receive digests arrival).2.latched endpoint = _ ∨ _
    rcases receive_cases digests backend arrival with
      ⟨_, _, hsame | ⟨source, payload, hflow⟩⟩ |
      ⟨config, source, payload, priority, hconfig, hunwrapped, _, hauthentic, hselected⟩
    · exact Or.inl (congrFun hsame endpoint)
    · refine Or.inl ((congrFun hflow endpoint).trans ?_)
      exact latched_dispatch_of_ice
        (show (backend.ice endpoint).isSome = true from Option.isSome_iff_ne_none.mpr hice) _
    · split_ifs at hselected with hsupersedes
      swap
      · exact Or.inl (congrFun hselected.1 endpoint)
      by_cases hendpoint : arrival.endpoint = endpoint
      · subst hendpoint
        refine Or.inr
          ⟨source, ⟨rfl, config, payload, priority, hconfig, hunwrapped, hauthentic⟩, ?_⟩
        exact (congrFun hselected.1 _).trans (setAt_self _ _ _)
      · exact Or.inl ((congrFun hselected.1 _).trans (setAt_of_ne _ (Ne.symm hendpoint) _))
  | installFlow target action => exact Or.inl ((installFlow_frame backend target action).2 hice)
  | setIce target config => cases config <;> exact Or.inl rfl
  | setIceAgent target config mode => exact Or.inl rfl
  | adoptSource target source =>
    by_cases htarget : target = endpoint
    · exact Or.inr ⟨source, ⟨htarget, rfl⟩, htarget ▸ setAt_self _ _ _⟩
    · exact Or.inl (setAt_of_ne _ (Ne.symm htarget) _)
  | setTurnRelay target relay => exact Or.inl rfl

/-- Turning ICE on leaves the latch as it was. -/
theorem latched_step_of_turnedOn {operation : Operation} (hoff : backend.ice endpoint = none)
    (hon : (backend.step digests operation).2.ice endpoint ≠ none) :
    (backend.step digests operation).2.latched endpoint = backend.latched endpoint := by
  cases operation with
  | receive arrival =>
    have hkept := congrFun (receive_frame digests backend arrival).2 endpoint
    exact absurd (hkept.trans hoff) hon
  | installFlow target action =>
    have hkept := congrFun (@installFlow_frame endpoint backend target action).1 endpoint
    exact absurd (hkept.trans hoff) hon
  | setIce target config => cases config <;> rfl
  | setIceAgent target config mode => rfl
  | adoptSource target source => exact absurd hoff hon
  | setTurnRelay target relay => rfl

/-! ### Runs -/

/-- The state before the `k`-th call of a run. -/
def before (digests : Digests) (backend : Backend) (operations : List Operation) (k : ℕ) :
    Backend :=
  final (step digests) backend (operations.take k)

/-- ICE was turned on at call `on` of a run and is still on before call `k`. -/
def OnSince (digests : Digests) (backend : Backend) (operations : List Operation)
    (endpoint : EndpointId) (on k : ℕ) : Prop :=
  on < k ∧ (before digests backend operations on).ice endpoint = none ∧
    ∀ j, on < j → j ≤ k → (before digests backend operations j).ice endpoint ≠ none

/-- What a latch on an ICE endpoint stands for: a recording since ICE was turned on, if there was no
latch then. -/
theorem latched_recorded {operations : List Operation}
    (hfresh : backend.ice endpoint = none) {k : ℕ} (hk : k ≤ operations.length)
    (hice : (before digests backend operations k).ice endpoint ≠ none) :
    ∃ on, OnSince digests backend operations endpoint on k ∧
      ((before digests backend operations on).latched endpoint = none →
        ∀ latch, (before digests backend operations k).latched endpoint = some latch →
          ∃ j operation, on < j ∧ j < k ∧ operations[j]? = some operation ∧
            Records digests (before digests backend operations j) operation endpoint
              latch.source) := by
  induction k with
  | zero => exact absurd hfresh hice
  | succ k ih =>
    have hinput : operations[k]? = some operations[k] := List.getElem?_eq_getElem hk
    have hnext : before digests backend operations (k + 1) =
        ((before digests backend operations k).step digests operations[k]).2 :=
      final_take_succ (step digests) hinput backend
    rw [hnext] at hice ⊢
    by_cases hoff : (before digests backend operations k).ice endpoint = none
    · -- this call turned ICE on
      refine ⟨k, ⟨Nat.lt_succ_self k, hoff, ?_⟩, ?_⟩
      · intro j hj hle
        obtain rfl : j = k + 1 := by omega
        rwa [hnext]
      · intro hclean latch hlatch
        rw [latched_step_of_turnedOn hoff hice, hclean] at hlatch
        exact nomatch hlatch
    · obtain ⟨on, ⟨hlt, honOff, hon⟩, hrecorded⟩ := ih (Nat.le_of_succ_le hk) hoff
      refine ⟨on, ⟨Nat.lt_succ_of_lt hlt, honOff, ?_⟩, ?_⟩
      · intro j hj hle
        rcases Nat.lt_or_eq_of_le hle with hlt | rfl
        · exact hon j hj (Nat.le_of_lt_succ hlt)
        · rwa [hnext]
      · intro hclean latch hlatch
        rcases @latched_step_of_ice digests _ endpoint hoff operations[k] with
          hsame | ⟨source, hrecords, hwritten⟩
        · obtain ⟨j, operation, hj, hjk, hoperation, hrecords⟩ :=
            hrecorded hclean latch (hsame ▸ hlatch)
          exact ⟨j, operation, hj, Nat.lt_succ_of_lt hjk, hoperation, hrecords⟩
        · obtain rfl : latch = ⟨source, none⟩ := Option.some.inj (hlatch.symm.trans hwritten)
          exact ⟨k, operations[k], hlt, Nat.lt_succ_self k, hinput, hrecords⟩

theorem latched_of_iceGate_accept {source : SocketAddr}
    (haccept : backend.toInner.iceGate endpoint source = .accept) :
    ∃ latch, backend.latched endpoint = some latch ∧ latch.source = source := by
  unfold Inner.iceGate at haccept
  split_ifs at haccept
  split at haccept
  · rename_i latch hlatch
    split_ifs at haccept with hsource
    exact ⟨latch, hlatch, hsource⟩
  · exact nomatch haccept

/-- On an ICE leg media is accepted from an authenticated path only. Assumes: a run from a fresh
backend at whose end the endpoint carries credentials. They have been there since some call turned
ICE on, and if the endpoint had no latch then, whatever source its gate accepts was recorded since:
by `adopt_source`, or by a check that nominated and authenticated under the credentials installed at
that moment. -/
theorem ice_source_authenticated (hfresh : backend.Fresh) (operations : List Operation)
    (hice : (final (step digests) backend operations).ice endpoint ≠ none) :
    ∃ on, OnSince digests backend operations endpoint on operations.length ∧
      ((before digests backend operations on).latched endpoint = none →
        ∀ source, (final (step digests) backend operations).toInner.iceGate endpoint source =
            .accept →
          ∃ k operation, on < k ∧ operations[k]? = some operation ∧
            Records digests (before digests backend operations k) operation endpoint source) := by
  have hend : before digests backend operations operations.length =
      final (step digests) backend operations := by
    rw [before, List.take_length]
  rw [← hend] at hice ⊢
  obtain ⟨on, hsince, hrecorded⟩ :=
    latched_recorded (hfresh endpoint).2.2.2.1 le_rfl hice
  refine ⟨on, hsince, fun hclean source haccept ↦ ?_⟩
  obtain ⟨latch, hlatch, rfl⟩ := latched_of_iceGate_accept haccept
  obtain ⟨k, operation, hk, _, hoperation, hrecords⟩ := hrecorded hclean latch hlatch
  exact ⟨k, operation, hk, hoperation, hrecords⟩

/-! ### A check, and a restart after it -/

/-- A backend with no state but its sockets. -/
def idle : Backend where
  clock := 1
  endpoints _ := true
  flows _ := none
  latched _ := none
  turnRelay _ := none
  ice _ := none
  iceNominated _ := none
  iceForwardOnly _ := false
  stats _ := {}

theorem fresh_idle : idle.Fresh := fun _ ↦ ⟨rfl, rfl, rfl, rfl, rfl, rfl⟩

/-- Credentials with the fragment `u` and a password. -/
def sampleConfig : IceConfig := ⟨[0x75], [0x70]⟩

/-- Credentials of a later session, with the fragment `v`. -/
def laterConfig : IceConfig := ⟨[0x76], [0x71]⟩

/-- A nominating check for the username `u:w`, signed with a password. -/
def sampleCheck (priority : UInt32) (source : SocketAddr) : Operation :=
  .receive ⟨1, source, bindingRequestIce zeroDigests (Vector.replicate 12 1) [0x75, 0x3A, 0x77]
    sampleConfig.localPwd priority (.controlling 1) true⟩

/-- A check under the first credentials opens the gate for its source, and the source is traced back
to it. -/
theorem check_opens_gate :
    (final (step zeroDigests) idle
        [.setIce 1 (some sampleConfig), sampleCheck 7 partySource]).toInner.iceGate 1 partySource =
          .accept ∧
      ∃ on, OnSince zeroDigests idle [.setIce 1 (some sampleConfig), sampleCheck 7 partySource] 1
          on 2 ∧
        ((before zeroDigests idle [.setIce 1 (some sampleConfig), sampleCheck 7 partySource]
            on).latched 1 = none →
          ∀ source, (final (step zeroDigests) idle [.setIce 1 (some sampleConfig),
              sampleCheck 7 partySource]).toInner.iceGate 1 source = .accept →
            ∃ k operation, on < k ∧
              [.setIce 1 (some sampleConfig), sampleCheck 7 partySource][k]? = some operation ∧
              Records zeroDigests (before zeroDigests idle [.setIce 1 (some sampleConfig),
                sampleCheck 7 partySource] k) operation 1 source) :=
  ⟨by decide, ice_source_authenticated fresh_idle _ (by decide)⟩

/-- After a restart the gate still accepts the source of the session before, although no check has
authenticated under the new credentials and nothing was adopted. -/
theorem restart_keeps_source :
    let operations := [.setIce 1 (some sampleConfig), sampleCheck 7 partySource,
      .setIce 1 (some laterConfig)]
    (final (step zeroDigests) idle operations).ice 1 = some laterConfig ∧
      (final (step zeroDigests) idle operations).toInner.iceGate 1 partySource = .accept ∧
      ∀ k < 3, (before zeroDigests idle operations k).ice 1 ≠ some laterConfig := by
  decide

end Backend

end SiphonRtp.Datapath
