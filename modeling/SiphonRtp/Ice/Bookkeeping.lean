import SiphonRtp.Ice.CheckBytes

/-!
# The tables of outstanding checks

An agent keeps each outstanding check three times: in `checks` under the index of its pair, in
`transactions` under its id, and in the checklist as a pair in progress. `Consistent` says that the
three agree. Every handler moves them together, one case apart: a success whose mapped address is
not a local candidate of ours is recorded on another pair than the one that was checked
(`validPair`), and nothing settles the checked pair, which has no check any more and stays in
progress. `Reveals` is that case, and `checks_consistent_iff` says that it is the only one.
-/

set_option autoImplicit false

namespace SiphonRtp.Ice.IceAgent

open Machine Datapath Stun

/-! ### The invariant -/

/-- The three tables of outstanding checks agree. -/
structure Consistent (agent : IceAgent) : Prop where
  /-- The transactions are those of the outstanding checks, each under the index of its pair. -/
  inverse : ∀ id index, agent.transactions id = some index ↔
    ∃ check, agent.checks.lookup index = some check ∧ check.transaction.id = id
  inProgress : ∀ index, agent.checklist.stateAt index = some .inProgress ↔ index ∈ agent.checks

section Tables

variable {agent after : IceAgent} {index : ℕ} {id : TransactionId}

theorem Consistent.of_quiet (hconsistent : Consistent agent) (hquiet : Quiet agent after) :
    Consistent after := by
  constructor
  · intro id index
    rw [hquiet.transactions, hquiet.checks]
    exact hconsistent.inverse id index
  · intro index
    rw [hquiet.inProgress, hquiet.checks]
    exact hconsistent.inProgress index

/-- A check that ends leaves all three tables, if its own pair is settled with it. -/
theorem Consistent.of_settled (hconsistent : Consistent agent) {valid : Option ℕ}
    (hsettled : Settled agent after index id valid) (hvalid : valid.getD index = index) :
    Consistent after := by
  obtain ⟨dropped, hdropped, hsame⟩ := (hconsistent.inverse id index).mp hsettled.known
  constructor
  · intro other position
    rw [hsettled.transactions, hsettled.checks]
    dsimp only
    constructor
    · intro hfound
      split_ifs at hfound with hother
      obtain ⟨check, hcheck, hcheckId⟩ := (hconsistent.inverse other position).mp hfound
      have hposition : position ≠ index := by
        rintro rfl
        obtain rfl := Option.some.inj (hdropped.symm.trans hcheck)
        exact hother (hcheckId.symm.trans hsame)
      exact ⟨check, (AList.lookup_erase_ne hposition).trans hcheck, hcheckId⟩
    · rintro ⟨check, hcheck, hcheckId⟩
      have hposition : position ≠ index := by
        rintro rfl
        exact nomatch (AList.lookup_erase _ _).symm.trans hcheck
      rw [AList.lookup_erase_ne hposition] at hcheck
      have hfound := (hconsistent.inverse other position).mpr ⟨check, hcheck, hcheckId⟩
      rw [if_neg, hfound]
      rintro rfl
      exact hposition (Option.some.inj (hfound.symm.trans hsettled.known))
  · intro other
    rw [hsettled.inProgress, hsettled.checks, AList.mem_erase, hconsistent.inProgress, hvalid]

/-- If it does not, the pair stays in progress. -/
theorem Consistent.not_of_settled (hconsistent : Consistent agent) {valid : Option ℕ}
    (hsettled : Settled agent after index id valid) (hvalid : valid.getD index ≠ index) :
    ¬ Consistent after := by
  intro hafter
  obtain ⟨check, hcheck, _⟩ := (hconsistent.inverse id index).mp hsettled.known
  have hmem : index ∈ agent.checks := AList.lookup_isSome.mp (by rw [hcheck]; rfl)
  have hstate := (hsettled.inProgress index).mpr
    ⟨hvalid.symm, (hconsistent.inProgress index).mpr hmem⟩
  have hchecked := (hafter.inProgress index).mp hstate
  rw [hsettled.checks, AList.mem_erase] at hchecked
  exact hchecked.1 rfl

/-- A check that goes on under its id. -/
theorem Consistent.polled (hconsistent : Consistent agent) {check polled : OutstandingCheck}
    (hcheck : agent.checks.lookup index = some check)
    (hid : polled.transaction.id = check.transaction.id) :
    Consistent { agent with checks := agent.checks.insert index polled } := by
  constructor
  · intro other position
    rw [hconsistent.inverse]
    by_cases hposition : position = index
    · subst hposition
      rw [hcheck]
      simp [hid]
    · rw [AList.lookup_insert_ne hposition]
  · intro position
    rw [AList.mem_insert]
    refine (hconsistent.inProgress position).trans ⟨Or.inr, ?_⟩
    rintro (rfl | hmem)
    · exact AList.lookup_isSome.mp (by rw [hcheck]; rfl)
    · exact hmem

/-- A check that is started enters all three tables. -/
theorem Consistent.started (hconsistent : Consistent agent) (hfree : index ∉ agent.checks)
    (hfresh : agent.transactions id = none) (hindex : index < agent.checklist.length)
    {check : OutstandingCheck} (hid : check.transaction.id = id)
    (hchecks : after.checks = agent.checks.insert index check)
    (htransactions : after.transactions =
      fun other ↦ if other = id then some index else agent.transactions other)
    (hchecklist : after.checklist = agent.checklist.setState index .inProgress) :
    Consistent after := by
  constructor
  · intro other position
    rw [htransactions, hchecks]
    dsimp only
    by_cases hposition : position = index
    · subst hposition
      rw [AList.lookup_insert]
      have hnone : ¬ agent.transactions other = some position := fun hfound ↦ by
        obtain ⟨old, hold, _⟩ := (hconsistent.inverse other position).mp hfound
        exact hfree (AList.lookup_isSome.mp (by rw [hold]; rfl))
      by_cases hother : other = id
      · simp [hother, hid]
      · simp only [if_neg hother, Option.some.injEq, exists_eq_left', hid]
        exact iff_of_false hnone fun h ↦ hother h.symm
    · rw [AList.lookup_insert_ne hposition, ← hconsistent.inverse]
      by_cases hother : other = id
      · subst hother
        rw [if_pos rfl, hfresh]
        exact iff_of_false (fun h ↦ hposition (Option.some.inj h).symm) fun h ↦ nomatch h
      · rw [if_neg hother]
  · intro other
    rw [hchecklist, hchecks, AList.mem_insert, Checklist.stateAt_setState]
    by_cases hother : index = other
    · subst hother
      obtain ⟨state, hstate⟩ := exists_state hindex
      simp [hstate]
    · rw [if_neg hother, hconsistent.inProgress]
      exact ⟨Or.inr, fun h ↦ h.resolve_left fun heq ↦ hother heq.symm⟩

end Tables

/-! ### Calls -/

section Calls

variable (env : Environment) {agent : IceAgent}

theorem consistent_pollCheck (hconsistent : Consistent agent) (now index : ℕ) :
    Consistent (agent.pollCheck env now index).1 := by
  rcases pollCheck_cases env agent now index with
    hsame | ⟨check, polled, hcheck, hid, hpolled | hfailed⟩
  · rw [hsame]
    exact hconsistent
  · rw [hpolled]
    exact hconsistent.polled hcheck hid
  · rw [hfailed]
    have hafter := hconsistent.polled hcheck hid
    refine hafter.of_settled (settled_failPair ?_) rfl
    exact (hconsistent.inverse _ index).mpr ⟨check, hcheck, rfl⟩

theorem consistent_pollChecks (hconsistent : Consistent agent) (now : ℕ) (order : List ℕ) :
    Consistent (agent.pollChecks env now order).1 := by
  induction order generalizing agent with
  | nil => exact hconsistent
  | cons index rest ih => exact ih (consistent_pollCheck env hconsistent now index)

theorem consistent_pollStart (hconsistent : Consistent agent) {poll : Poll}
    (hfresh : ∀ id ∈ poll.draws, agent.transactions id = none) :
    Consistent (agent.pollStart env poll).1 := by
  cases starts_pollStart env agent poll with
  | nothing hconfig hchecklist hchecks htransactions =>
    exact hconsistent.of_quiet (quiet_of_nothing hconfig hchecklist hchecks htransactions)
  | check index id nominating pair _ hdrawn hidle hfound _ hchecklist hchecks htransactions =>
    have hindex : index < agent.checklist.length := by
      have hlt := (List.getElem?_eq_some_iff.mp hfound).1
      rwa [Checklist.candidates, List.length_map] at hlt
    exact hconsistent.started
      (fun hmem ↦ hidle hmem ((hconsistent.inProgress index).mpr hmem)) (hfresh _ hdrawn) hindex rfl
      hchecks htransactions hchecklist

/-- A transaction of an agent after its checks have been visited is one of before. -/
theorem transactions_pollChecks (now : ℕ) (order : List ℕ) {id : TransactionId}
    (hnone : agent.transactions id = none) :
    (agent.pollChecks env now order).1.transactions id = none := by
  induction order generalizing agent with
  | nil => exact hnone
  | cons index rest ih =>
    refine ih ?_
    rcases pollCheck_cases env agent now index with
      hsame | ⟨check, polled, _, _, hpolled | hfailed⟩
    · rw [hsame]
      exact hnone
    · rw [hpolled]
      exact hnone
    · rw [hfailed, failPair_eq]
      dsimp only
      rw [hnone, ite_self]

/-- An id that is neither a transaction nor drawn is no transaction afterwards. -/
theorem transactions_step {id : TransactionId} {event : Event}
    (hnone : agent.transactions id = none) (hdraws : id ∉ event.draws) :
    (agent.step env event).2.transactions id = none := by
  cases event with
  | poll poll =>
    show (agent.poll env poll).1.transactions id = none
    unfold IceAgent.poll
    split_ifs
    · exact hnone
    · have hvisited := transactions_pollChecks env poll.now poll.order hnone
      cases starts_pollStart env (agent.pollChecks env poll.now poll.order).1 poll with
      | nothing _ _ _ htransactions => rw [htransactions, hvisited]
      | check _ _ _ _ _ hdrawn _ _ _ _ _ htransactions =>
        rw [htransactions]
        dsimp only
        rw [if_neg, hvisited]
        rintro rfl
        exact hdraws hdrawn
  | datagram localAddress source datagram =>
    have hsettled : ∀ {index other valid}, Settled agent
        (agent.onDatagram env localAddress source datagram).1 index other valid →
          (agent.onDatagram env localAddress source datagram).1.transactions id = none := by
      intro index other valid hsettled
      rw [hsettled.transactions]
      dsimp only
      rw [hnone, ite_self]
    cases handled_onDatagram env agent localAddress source datagram with
    | quiet _ hquiet _ => exact (congrFun hquiet.transactions id).trans hnone
    | ended _ _ _ hended _ => exact hsettled hended
    | answered _ _ _ _ _ hanswered _ _ _ => exact hsettled hanswered
  | addRemoteCandidate remote =>
    exact (congrFun (quiet_addRemoteCandidate agent remote).transactions id).trans hnone

/-- A success that reveals an address of ours that is none of our candidates. -/
def Reveals (env : Environment) (agent : IceAgent) : Event → Prop
  | .datagram _ source datagram => ∃ message index pair,
      Answers env agent source datagram message index pair ∧ Foreign agent message
  | _ => False

/-- A call keeps the tables in agreement exactly if it reveals no foreign address. Assumes: the ids
it draws are not in use. -/
theorem consistent_step_iff (hconsistent : Consistent agent) {event : Event}
    (hfresh : ∀ id ∈ event.draws, agent.transactions id = none) :
    Consistent (agent.step env event).2 ↔ ¬ Reveals env agent event := by
  cases event with
  | poll poll =>
    refine iff_of_true ?_ id
    show Consistent (agent.poll env poll).1
    unfold IceAgent.poll
    split_ifs
    · exact hconsistent
    · exact consistent_pollStart env (consistent_pollChecks env hconsistent poll.now poll.order)
        fun id hid ↦ transactions_pollChecks env poll.now poll.order (hfresh id hid)
  | datagram localAddress source datagram =>
    show Consistent (agent.onDatagram env localAddress source datagram).1 ↔ _
    cases handled_onDatagram env agent localAddress source datagram with
    | quiet hunanswered hquiet _ =>
      refine iff_of_true (hconsistent.of_quiet hquiet) ?_
      exact fun ⟨message, index, pair, hanswers, _⟩ ↦ hunanswered message index pair hanswers
    | ended hunanswered index id hsettled _ =>
      refine iff_of_true (hconsistent.of_settled hsettled rfl) ?_
      exact fun ⟨message, index, pair, hanswers, _⟩ ↦ hunanswered message index pair hanswers
    | answered message index pair valid hanswers hsettled _ hforeign _ =>
      by_cases hvalid : valid = index
      · refine iff_of_true (hconsistent.of_settled hsettled hvalid) ?_
        rintro ⟨other, _, _, hother, hreveals⟩
        obtain rfl := Except.ok.inj (hother.parsed.symm.trans hanswers.parsed)
        exact hforeign.mp hvalid hreveals
      · refine iff_of_false (hconsistent.not_of_settled hsettled hvalid) (not_not.mpr ?_)
        exact ⟨message, index, pair, hanswers, not_not.mp (mt hforeign.mpr hvalid)⟩
  | addRemoteCandidate remote =>
    exact iff_of_true (hconsistent.of_quiet (quiet_addRemoteCandidate agent remote)) id

end Calls

/-! ### Whole runs -/

section Runs

variable (env : Environment) (config : AgentConfig) (now : ℕ)

theorem consistent_new : Consistent (.new config now) := by
  refine ⟨fun id index ↦ iff_of_false (fun h ↦ nomatch h) ?_, fun index ↦ iff_of_false ?_ ?_⟩
  · rintro ⟨check, hcheck, _⟩
    exact nomatch hcheck
  · intro hstate
    exact (Checklist.stateAt_form hstate).elim PairState.noConfusion PairState.noConfusion
  · exact AList.notMem_empty index

/-- The transactions of an agent were drawn before. -/
theorem transactions_final (events : List Event) {id : TransactionId}
    (hid : id ∉ events.flatMap Event.draws) :
    (final (step env) (.new config now) events).transactions id = none := by
  refine final_invariant (fun agent : IceAgent ↦ agent.transactions id = none)
    (fun agent event hevent hnone ↦ transactions_step env hnone fun hdrawn ↦ ?_) rfl
  exact hid (List.mem_flatMap.mpr ⟨event, hevent, hdrawn⟩)

/-- Ids that are drawn once are not in use when they are drawn. -/
theorem fresh_of_nodup {events : List Event} (hids : (events.flatMap Event.draws).Nodup) {k : ℕ}
    {event : Event} (hevent : events[k]? = some event) :
    ∀ id ∈ event.draws,
      (final (step env) (.new config now) (events.take k)).transactions id = none := by
  intro id hid
  refine transactions_final env config now (events.take k) fun hearlier ↦ ?_
  have hsplit : events = events.take k ++ event :: events.drop (k + 1) := by
    obtain ⟨hlt, rfl⟩ := List.getElem?_eq_some_iff.mp hevent
    rw [List.getElem_cons_drop, List.take_append_drop]
  rw [hsplit, List.flatMap_append] at hids
  exact (List.nodup_append.mp hids).2.2 id hearlier id (List.mem_append_left _ hid) rfl

/-- The transaction table and the outstanding checks of an agent are inverse to each other, and its
pairs in progress are those with an outstanding check, in every state of a run, exactly if no
success of the run reveals an address of ours that is none of our candidates. Assumes: the ids drawn
are pairwise distinct. -/
theorem checks_consistent_iff (events : List Event) (hids : (events.flatMap Event.draws).Nodup) :
    (∀ k ≤ events.length, Consistent (final (step env) (.new config now) (events.take k))) ↔
      ∀ k event, events[k]? = some event →
        ¬ Reveals env (final (step env) (.new config now) (events.take k)) event := by
  constructor
  · intro hconsistent k event hevent
    have hlt : k < events.length := (List.getElem?_eq_some_iff.mp hevent).1
    have hafter := hconsistent (k + 1) hlt
    rw [final_take_succ (step env) hevent] at hafter
    exact (consistent_step_iff env (hconsistent k hlt.le)
      (fresh_of_nodup env config now hids hevent)).mp hafter
  · intro hquiet k hk
    refine final_take_induction (fun _ agent ↦ Consistent agent) (consistent_new config now) ?_ hk
    intro k event hevent hbefore
    exact (consistent_step_iff env hbefore (fresh_of_nodup env config now hids hevent)).mpr
      (hquiet k event hevent)

end Runs

/-- The sample agent sends its check, and the peer answers that it came from some address. -/
def answeredRun (mapped : SocketAddr) : List Event :=
  [.poll ⟨0, [], none, some (sampleId 1)⟩,
    .datagram (.v4 1 4000) (.v4 2 5000)
      (bindingSuccessResponse sampleEnvironment.toDigests (sampleId 1) mapped (some [0x72]))]

/-- The check came from the address it was sent from: the tables agree throughout. -/
theorem checks_consistent_host :
    ((answeredRun (.v4 1 4000)).flatMap Event.draws).Nodup ∧
      ∀ k ≤ 2, Consistent (final (step sampleEnvironment) (.new (sampleConfig true 1) 0)
        ((answeredRun (.v4 1 4000)).take k)) := by
  have hids : ((answeredRun (.v4 1 4000)).flatMap Event.draws).Nodup := by decide
  refine ⟨hids, (checks_consistent_iff sampleEnvironment (sampleConfig true 1) 0
    (answeredRun (.v4 1 4000)) hids).mpr fun k event hevent ↦ ?_⟩
  match k, hevent with
  | 0, rfl => exact id
  | 1, rfl =>
    rintro ⟨message, _, _, hanswers, mapped, hmapped, hforeign⟩
    have hread : (parse (bindingSuccessResponse sampleEnvironment.toDigests (sampleId 1)
        (.v4 1 4000) (some [0x72]))).toOption.bind StunMessage.xorMappedAddress =
          some (.v4 1 4000) := by decide
    rw [hanswers.parsed] at hread
    obtain rfl := Option.some.inj (hmapped.symm.trans hread)
    exact absurd hforeign (by decide)

/-- The check went through an address translation: the pair that was checked stays in progress, and
has no check. -/
theorem translated_check_in_progress :
    ((answeredRun (.v4 9 4000)).flatMap Event.draws).Nodup ∧
      (final (step sampleEnvironment) (.new (sampleConfig true 1) 0)
        (answeredRun (.v4 9 4000))).checklist.stateAt 0 = some .inProgress ∧
      ¬ Consistent (final (step sampleEnvironment) (.new (sampleConfig true 1) 0)
        (answeredRun (.v4 9 4000))) := by
  have hstate : (final (step sampleEnvironment) (.new (sampleConfig true 1) 0)
      (answeredRun (.v4 9 4000))).checklist.stateAt 0 = some .inProgress := by decide
  refine ⟨by decide, hstate, fun hconsistent ↦ ?_⟩
  exact absurd ((hconsistent.inProgress 0).mp hstate) (by decide)

end SiphonRtp.Ice.IceAgent
