import SiphonRtp.Datapath.IcePath

/-!
# Which nomination an ICE-lite endpoint selects

Within one ICE session, the calls since the current username fragment was installed, the responder
keeps the PRIORITY of the nomination it selected and takes the next one that is not below it. So the
selected source is that of the last among the nominations of the highest PRIORITY
(`selected_is_last_maximum`). A nomination is a datagram on an endpoint whose checks the responder
answers that authenticates under the credentials of the moment and carries USE-CANDIDATE
(`handleStun_cases`).

A session starts clean when `set_ice` brings another fragment, or with the first credentials of an
endpoint by either call (`Installs`). `equal_priority_moves_source` is why it is the last such
nomination and not the first.
-/

set_option autoImplicit false

namespace SiphonRtp.Datapath

open Machine Stun

/-! ### The last maximum of a list -/

section LastMaximum

variable {α β : Type*} [LinearOrder β] {key : α → β}

/-- An entry of a list whose key no earlier one exceeds and every later one stays below. -/
def IsLastMaximum (key : α → β) (entries : List α) (entry : α) : Prop :=
  ∃ earlier later, entries = earlier ++ entry :: later ∧
    (∀ other ∈ earlier, key other ≤ key entry) ∧ ∀ other ∈ later, key other < key entry

theorem isLastMaximum_singleton (entry : α) : IsLastMaximum key [entry] entry :=
  ⟨[], [], rfl, fun _ hother ↦ absurd hother List.not_mem_nil,
    fun _ hother ↦ absurd hother List.not_mem_nil⟩

theorem IsLastMaximum.le {entries : List α} {entry other : α}
    (hmax : IsLastMaximum key entries entry) (hother : other ∈ entries) :
    key other ≤ key entry := by
  obtain ⟨earlier, later, rfl, hearlier, hlater⟩ := hmax
  rcases List.mem_append.mp hother with hother | hother
  · exact hearlier other hother
  · rcases List.mem_cons.mp hother with rfl | hother
    · exact le_rfl
    · exact (hlater other hother).le

/-- An entry not below the maximum takes its place. -/
theorem IsLastMaximum.concat_of_le {entries : List α} {entry next : α}
    (hmax : IsLastMaximum key entries entry) (hle : key entry ≤ key next) :
    IsLastMaximum key (entries ++ [next]) next :=
  ⟨entries, [], rfl, fun _ hother ↦ (hmax.le hother).trans hle,
    fun _ hother ↦ absurd hother List.not_mem_nil⟩

/-- An entry below the maximum leaves it. -/
theorem IsLastMaximum.concat_of_lt {entries : List α} {entry next : α}
    (hmax : IsLastMaximum key entries entry) (hlt : key next < key entry) :
    IsLastMaximum key (entries ++ [next]) entry := by
  obtain ⟨earlier, later, rfl, hearlier, hlater⟩ := hmax
  refine ⟨earlier, later ++ [next], by simp, hearlier, ?_⟩
  intro other hother
  rcases List.mem_append.mp hother with hother | hother
  · exact hlater other hother
  · rw [List.mem_singleton.mp hother]
    exact hlt

end LastMaximum

namespace Backend

variable {digests : Digests} {backend : Backend} {endpoint : EndpointId}

/-- The nomination that a call on an endpoint carries, by what came of it. -/
def nominationOn (endpoint : EndpointId) (entry : Operation × Option Received) :
    Option (SocketAddr × UInt32) :=
  match entry with
  | (.receive arrival, some received) =>
    if arrival.endpoint = endpoint then received.nomination else none
  | _ => none

/-- The nominations of an endpoint along a run, oldest first. -/
def nominations (digests : Digests) (backend : Backend) (operations : List Operation)
    (endpoint : EndpointId) : List (SocketAddr × UInt32) :=
  (trace (step digests) backend operations).filterMap (nominationOn endpoint)

theorem nominations_cons (digests : Digests) (backend : Backend) (operation : Operation)
    (operations : List Operation) (endpoint : EndpointId) :
    nominations digests backend (operation :: operations) endpoint =
      (nominationOn endpoint (operation, (backend.step digests operation).1)).toList ++
        nominations digests (backend.step digests operation).2 operations endpoint := by
  rw [nominations, trace_cons, List.filterMap_cons]
  cases nominationOn endpoint (operation, (backend.step digests operation).1) with
  | none => rfl
  | some nomination => rfl

/-! ### One session -/

/-- The key that orders nominations. -/
def priorityOf (nomination : SocketAddr × UInt32) : ℕ := nomination.2.toNat

/-- What an endpoint has selected after a history of nominations: nothing yet, or the last of the
highest PRIORITY. -/
def Selected (backend : Backend) (endpoint : EndpointId)
    (history : List (SocketAddr × UInt32)) : Prop :=
  (history = [] ∧ backend.iceNominated endpoint = none) ∨
    ∃ nomination, IsLastMaximum priorityOf history nomination ∧
      backend.iceNominated endpoint = some nomination.2 ∧
      backend.latched endpoint = some ⟨nomination.1, none⟩

/-- A call that stays within a session: credentials keep the fragment, and no source is adopted. -/
def Keeps (operation : Operation) (endpoint : EndpointId) (ufrag : Bytes) : Prop :=
  match operation with
  | .setIce target config =>
    target = endpoint → ∃ kept, config = some kept ∧ kept.localUfrag = ufrag
  | .setIceAgent target config _ => target = endpoint → config.localUfrag = ufrag
  | .adoptSource target _ => target ≠ endpoint
  | _ => True

/-- The credentials of an endpoint carry a fragment. -/
def InSession (backend : Backend) (endpoint : EndpointId) (ufrag : Bytes) : Prop :=
  ∃ config, backend.ice endpoint = some config ∧ config.localUfrag = ufrag

theorem inSession_step {ufrag : Bytes} (hsession : backend.InSession endpoint ufrag)
    {operation : Operation} (hkeeps : Keeps operation endpoint ufrag) :
    (backend.step digests operation).2.InSession endpoint ufrag := by
  obtain ⟨config, hice, hufrag⟩ := hsession
  cases operation with
  | receive arrival =>
    exact ⟨config, (congrFun (receive_frame digests backend arrival).2 endpoint).trans hice, hufrag⟩
  | installFlow target action =>
    exact ⟨config, (congrFun (@installFlow_frame endpoint backend target action).1 endpoint).trans
      hice, hufrag⟩
  | setIce target installed =>
    by_cases htarget : target = endpoint
    · obtain ⟨kept, rfl, hkept⟩ := hkeeps htarget
      exact ⟨kept, htarget ▸ setAt_self _ _ _, hkept⟩
    · have hother : (backend.setIce target installed).ice endpoint = backend.ice endpoint := by
        cases installed with
        | none => exact setAt_of_ne _ (Ne.symm htarget) _
        | some installed => exact setAt_of_ne _ (Ne.symm htarget) _
      exact ⟨config, hother.trans hice, hufrag⟩
  | setIceAgent target installed mode =>
    by_cases htarget : target = endpoint
    · exact ⟨installed, htarget ▸ setAt_self _ _ _, hkeeps htarget⟩
    · exact ⟨config, (setAt_of_ne _ (Ne.symm htarget) _).trans hice, hufrag⟩
  | adoptSource target source => exact ⟨config, hice, hufrag⟩
  | setTurnRelay target relay => exact ⟨config, hice, hufrag⟩

/-- A nominating check moves the selection as the next entry of the history does. -/
theorem selected_concat {history : List (SocketAddr × UInt32)}
    (hselected : backend.Selected endpoint history) {after : Backend}
    {nomination : SocketAddr × UInt32}
    (hafter : if nominationSupersedes (backend.iceNominated endpoint) nomination.2 then
        after.latched endpoint = some ⟨nomination.1, none⟩ ∧
          after.iceNominated endpoint = some nomination.2
      else after.latched endpoint = backend.latched endpoint ∧
        after.iceNominated endpoint = backend.iceNominated endpoint) :
    after.Selected endpoint (history ++ [nomination]) := by
  rcases hselected with ⟨rfl, hnone⟩ | ⟨selected, hmax, hpriority, hlatched⟩
  · rw [hnone] at hafter
    exact Or.inr ⟨nomination, isLastMaximum_singleton nomination, hafter.2, hafter.1⟩
  · rw [hpriority] at hafter
    by_cases hle : selected.2 ≤ nomination.2
    · rw [nominationSupersedes, decide_eq_true hle] at hafter
      exact Or.inr ⟨nomination, hmax.concat_of_le (UInt32.le_iff_toNat_le.mp hle), hafter.2,
        hafter.1⟩
    · rw [nominationSupersedes, decide_eq_false hle] at hafter
      have hlt : priorityOf nomination < priorityOf selected :=
        Nat.lt_of_not_le fun hge ↦ hle (UInt32.le_iff_toNat_le.mpr hge)
      exact Or.inr ⟨selected, hmax.concat_of_lt hlt, hafter.2, hafter.1.trans hlatched⟩

/-- A call without a nomination that leaves latch and nomination of an endpoint leaves its
selection. -/
theorem selected_of_silent {history : List (SocketAddr × UInt32)}
    (hselected : backend.Selected endpoint history) {after : Backend}
    {call : Operation × Option Received} (hsilent : nominationOn endpoint call = none)
    (hlatched : after.latched endpoint = backend.latched endpoint)
    (hnominated : after.iceNominated endpoint = backend.iceNominated endpoint) :
    after.Selected endpoint (history ++ (nominationOn endpoint call).toList) := by
  unfold Selected
  rw [hsilent, Option.toList_none, List.append_nil, hlatched, hnominated]
  exact hselected

theorem iceNominated_installFlow (backend : Backend) (target : EndpointId) (action : FlowAction) :
    (backend.installFlow target action).iceNominated = backend.iceNominated := by
  unfold installFlow
  split_ifs
  · rfl
  cases action with
  | redirect => rfl
  | drop => rfl
  | forward rule => rfl

/-- A datagram of the session extends the history by the nomination it carries. -/
theorem selected_receive {history : List (SocketAddr × UInt32)} {ufrag : Bytes}
    (hselected : backend.Selected endpoint history) (hsession : backend.InSession endpoint ufrag)
    (arrival : Arrival) :
    (backend.receive digests arrival).2.Selected endpoint (history ++
      (nominationOn endpoint
        (.receive arrival, some (backend.receive digests arrival).1)).toList) := by
  obtain ⟨config, hice, _⟩ := hsession
  have hsome : backend.toInner.ice endpoint = true := by
    show (backend.ice endpoint).isSome = true
    rw [hice]
    rfl
  rcases receive_cases digests backend arrival with
    ⟨hplain, hnominated, hlatched⟩ |
    ⟨used, source, payload, priority, _, _, hnomination, _, hwritten⟩
  · refine selected_of_silent hselected (by simp [nominationOn, hplain]) ?_
      (congrFun hnominated endpoint)
    rcases hlatched with hsame | ⟨source, payload, hdispatched⟩
    · exact congrFun hsame endpoint
    · exact (congrFun hdispatched endpoint).trans (latched_dispatch_of_ice hsome _)
  by_cases hendpoint : arrival.endpoint = endpoint
  · subst hendpoint
    have hcarried : nominationOn arrival.endpoint
        (.receive arrival, some (backend.receive digests arrival).1) = some (source, priority) := by
      simp [nominationOn, hnomination]
    rw [hcarried]
    refine selected_concat hselected ?_
    split_ifs at hwritten ⊢ with hsupersedes
    · rw [hwritten.1, hwritten.2]
      exact ⟨setAt_self _ _ _, setAt_self _ _ _⟩
    · rw [hwritten.1, hwritten.2]
      exact ⟨rfl, rfl⟩
  · -- a nomination on another endpoint
    have hsilent : nominationOn endpoint
        (.receive arrival, some (backend.receive digests arrival).1) = none := by
      simp [nominationOn, hendpoint]
    split_ifs at hwritten
    · refine selected_of_silent hselected hsilent ?_ ?_
      · rw [hwritten.1, setAt_of_ne _ (Ne.symm hendpoint) _]
      · rw [hwritten.2, setAt_of_ne _ (Ne.symm hendpoint) _]
    · exact selected_of_silent hselected hsilent (congrFun hwritten.1 _) (congrFun hwritten.2 _)

/-- A call of the session extends the history by the nomination it carries. -/
theorem selected_step {history : List (SocketAddr × UInt32)} {ufrag : Bytes}
    (hselected : backend.Selected endpoint history) (hsession : backend.InSession endpoint ufrag)
    {operation : Operation} (hkeeps : Keeps operation endpoint ufrag) :
    (backend.step digests operation).2.Selected endpoint (history ++
      (nominationOn endpoint (operation, (backend.step digests operation).1)).toList) := by
  cases operation with
  | receive arrival => exact selected_receive hselected hsession arrival
  | installFlow target action =>
    obtain ⟨config, hice, _⟩ := hsession
    have hlatched := (installFlow_frame backend target action).2
      (show backend.ice endpoint ≠ none from fun hnone ↦ nomatch hice.symm.trans hnone)
    exact selected_of_silent hselected rfl hlatched
      (congrFun (iceNominated_installFlow backend target action) endpoint)
  | setIce target installed =>
    refine selected_of_silent hselected rfl (by cases installed <;> rfl) ?_
    by_cases htarget : target = endpoint
    · obtain ⟨kept, rfl, hkept⟩ := hkeeps htarget
      obtain ⟨config, hice, hufrag⟩ := hsession
      subst htarget
      simp [step, setIce, hice, hufrag, hkept]
    · cases installed with
      | none => exact setAt_of_ne _ (Ne.symm htarget) _
      | some installed =>
        show (if _ then _ else _ : EndpointId → Option UInt32) endpoint = _
        split_ifs
        · exact setAt_of_ne _ (Ne.symm htarget) _
        · rfl
  | setIceAgent target installed mode => exact selected_of_silent hselected rfl rfl rfl
  | adoptSource target source =>
    exact selected_of_silent hselected rfl (setAt_of_ne _ (Ne.symm hkeeps) _) rfl
  | setTurnRelay target relay => exact selected_of_silent hselected rfl rfl rfl

/-- Over a whole session the selection follows the history. -/
theorem selected_final {ufrag : Bytes} {operations : List Operation}
    (hkeeps : ∀ operation ∈ operations, Keeps operation endpoint ufrag)
    (hsession : backend.InSession endpoint ufrag) {history : List (SocketAddr × UInt32)}
    (hselected : backend.Selected endpoint history) :
    (final (step digests) backend operations).Selected endpoint
      (history ++ nominations digests backend operations endpoint) := by
  induction operations generalizing backend history with
  | nil => simpa [nominations, trace] using hselected
  | cons operation operations ih =>
    have hfirst := hkeeps operation List.mem_cons_self
    have hstep := @selected_step digests _ _ _ _ hselected hsession _ hfirst
    rw [nominations_cons, ← List.append_assoc]
    exact ih (fun other hother ↦ hkeeps other (List.mem_cons_of_mem _ hother))
      (inSession_step hsession hfirst) hstep

/-! ### Where a session starts -/

/-- Without credentials an endpoint remembers no nomination. -/
theorem iceNominated_step_of_off {operation : Operation}
    (hbefore : ∀ endpoint, backend.ice endpoint = none → backend.iceNominated endpoint = none) :
    ∀ endpoint, (backend.step digests operation).2.ice endpoint = none →
      (backend.step digests operation).2.iceNominated endpoint = none := by
  intro endpoint hoff
  cases operation with
  | receive arrival =>
    have hkept := (congrFun (receive_frame digests backend arrival).2 endpoint).symm.trans hoff
    show (backend.receive digests arrival).2.iceNominated endpoint = none
    rcases receive_cases digests backend arrival with
      ⟨_, hnominated, _⟩ | ⟨config, source, payload, priority, hconfig, _, _, _, hwritten⟩
    · rw [hnominated]
      exact hbefore endpoint hkept
    · have hne : endpoint ≠ arrival.endpoint := by
        rintro rfl
        exact nomatch hkept.symm.trans hconfig
      split_ifs at hwritten
      · rw [hwritten.2, setAt_of_ne _ hne _]
        exact hbefore endpoint hkept
      · rw [hwritten.2]
        exact hbefore endpoint hkept
  | installFlow target action =>
    have hkept :=
      (congrFun (@installFlow_frame endpoint backend target action).1 endpoint).symm.trans
      hoff
    exact (congrFun (iceNominated_installFlow backend target action) endpoint).trans
      (hbefore endpoint hkept)
  | setIce target installed =>
    cases installed with
    | none =>
      by_cases htarget : endpoint = target
      · exact htarget ▸ setAt_self _ _ _
      · have hkept := (setAt_of_ne backend.ice htarget none).symm.trans hoff
        exact (setAt_of_ne _ htarget _).trans (hbefore endpoint hkept)
    | some installed =>
      have hne : endpoint ≠ target := by
        rintro rfl
        exact nomatch (setAt_self backend.ice endpoint (some installed)).symm.trans hoff
      have hkept := (setAt_of_ne backend.ice hne (some installed)).symm.trans hoff
      show (if _ then _ else _ : EndpointId → Option UInt32) endpoint = _
      split_ifs
      · exact (setAt_of_ne _ hne _).trans (hbefore endpoint hkept)
      · exact hbefore endpoint hkept
  | setIceAgent target installed mode =>
    have hne : endpoint ≠ target := by
      rintro rfl
      exact nomatch (setAt_self backend.ice endpoint (some installed)).symm.trans hoff
    exact hbefore endpoint ((setAt_of_ne backend.ice hne (some installed)).symm.trans hoff)
  | adoptSource target source => exact hbefore endpoint hoff
  | setTurnRelay target relay => exact hbefore endpoint hoff

/-- A call that starts a session with a fragment: `set_ice` with one that differs from the fragment
before, or the first credentials of the endpoint by either call. -/
def Installs (backend : Backend) (operation : Operation) (endpoint : EndpointId) (ufrag : Bytes) :
    Prop :=
  match operation with
  | .setIce target (some config) => target = endpoint ∧ config.localUfrag = ufrag ∧
      ∀ previous, backend.ice endpoint = some previous → previous.localUfrag ≠ ufrag
  | .setIceAgent target config _ => target = endpoint ∧ config.localUfrag = ufrag ∧
      backend.ice endpoint = none
  | _ => False

/-- A session starts with nothing selected. -/
theorem selected_of_installs {operation : Operation} {ufrag : Bytes}
    (hoff : ∀ endpoint, backend.ice endpoint = none → backend.iceNominated endpoint = none)
    (hinstalls : backend.Installs operation endpoint ufrag) :
    (backend.step digests operation).2.InSession endpoint ufrag ∧
      (backend.step digests operation).2.Selected endpoint [] := by
  cases operation with
  | setIce target installed =>
    cases installed with
    | none => exact absurd hinstalls id
    | some config =>
      obtain ⟨rfl, hufrag, hdiffers⟩ := hinstalls
      refine ⟨⟨config, setAt_self _ _ _, hufrag⟩, Or.inl ⟨rfl, ?_⟩⟩
      cases hice : backend.ice target with
      | none => simp [step, setIce, hice, hoff target hice]
      | some previous =>
        have hrestarted : previous.localUfrag ≠ config.localUfrag := by
          rw [hufrag]
          exact hdiffers previous hice
        simp [step, setIce, hice, hrestarted]
  | setIceAgent target config mode =>
    obtain ⟨rfl, hufrag, hfirst⟩ := hinstalls
    exact ⟨⟨config, setAt_self _ _ _, hufrag⟩, Or.inl ⟨rfl, hoff target hfirst⟩⟩
  | receive arrival => exact absurd hinstalls id
  | installFlow target action => exact absurd hinstalls id
  | adoptSource target source => exact absurd hinstalls id
  | setTurnRelay target relay => exact absurd hinstalls id

/-- Nominations are ordered within their session. Assumes: a run from a fresh backend, in which a
call installs a fragment and all calls after it stay within the session. Once a nomination has been
received since, the selected source is that of the last nomination of the highest PRIORITY among
those received since. -/
theorem selected_is_last_maximum (hfresh : backend.Fresh) (earlier later : List Operation)
    {install : Operation} {ufrag : Bytes}
    (hinstall : (final (step digests) backend earlier).Installs install endpoint ufrag)
    (hlater : ∀ operation ∈ later, Keeps operation endpoint ufrag) :
    let started := final (step digests) backend (earlier ++ [install])
    nominations digests started later endpoint ≠ [] →
      ∃ nomination,
        IsLastMaximum priorityOf (nominations digests started later endpoint) nomination ∧
        (final (step digests) started later).latched endpoint = some ⟨nomination.1, none⟩ := by
  intro started hreceived
  have hoff : ∀ endpoint, (final (step digests) backend earlier).ice endpoint = none →
      (final (step digests) backend earlier).iceNominated endpoint = none :=
    final_invariant
      (fun state : Backend ↦
        ∀ endpoint, state.ice endpoint = none → state.iceNominated endpoint = none)
      (fun state operation _ hbefore ↦ iceNominated_step_of_off hbefore)
      (fun endpoint _ ↦ (hfresh endpoint).2.2.2.2.1)
  have hstarted : started =
      ((final (step digests) backend earlier).step digests install).2 :=
    final_append _ _ _ _
  obtain ⟨hsession, hclean⟩ := @selected_of_installs digests _ _ _ _ hoff hinstall
  rw [← hstarted] at hsession hclean
  rcases selected_final hlater hsession hclean with
    ⟨hnone, _⟩ | ⟨nomination, hmax, _, hlatched⟩
  · exact absurd hnone hreceived
  · exact ⟨nomination, hmax, hlatched⟩

/-! ### Two nominations -/

/-- A nomination of a lower PRIORITY leaves the selected source. -/
theorem lower_priority_ignored :
    let later := [sampleCheck 7 partySource, sampleCheck 5 otherSource]
    let started := final (step zeroDigests) idle ([] ++ [.setIce 1 (some sampleConfig)])
    nominations zeroDigests started later 1 = [(partySource, 7), (otherSource, 5)] ∧
      ∃ nomination, IsLastMaximum priorityOf (nominations zeroDigests started later 1) nomination ∧
        (final (step zeroDigests) started later).latched 1 = some ⟨nomination.1, none⟩ := by
  refine ⟨by decide, ?_⟩
  have hinstall : (final (step zeroDigests) idle []).Installs (.setIce 1 (some sampleConfig)) 1
      sampleConfig.localUfrag :=
    ⟨rfl, rfl, fun previous hprevious ↦ nomatch hprevious⟩
  have hlater : ∀ operation ∈ [sampleCheck 7 partySource, sampleCheck 5 otherSource],
      Keeps operation 1 sampleConfig.localUfrag := by
    intro operation hoperation
    rcases List.mem_cons.mp hoperation with rfl | hoperation
    · trivial
    · rw [List.mem_singleton.mp hoperation]
      trivial
  exact selected_is_last_maximum fresh_idle []
    [sampleCheck 7 partySource, sampleCheck 5 otherSource]
    hinstall hlater (by decide)

/-- Of two nominations with the same PRIORITY the second one is selected. -/
theorem equal_priority_moves_source :
    let later := [sampleCheck 7 partySource, sampleCheck 7 otherSource]
    let started := final (step zeroDigests) idle [.setIce 1 (some sampleConfig)]
    nominations zeroDigests started later 1 = [(partySource, 7), (otherSource, 7)] ∧
      (final (step zeroDigests) started later).latched 1 = some ⟨otherSource, none⟩ := by
  decide

end Backend

end SiphonRtp.Datapath
