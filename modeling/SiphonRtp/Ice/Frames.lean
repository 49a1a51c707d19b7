import SiphonRtp.Ice.Agent

/-!
# What the calls of an agent leave alone

A pair keeps its two candidates at its index, whatever a call writes (`Checklist.candidates`), and a
trickled candidate keeps what every new pair keeps (`addRemoteCandidate_induction`).

A poll visits the outstanding checks and then starts at most one (`poll_cases`). A visit adds no
check and transmits those that were outstanding (`Visits`), and a start transmits the check that is
outstanding from then on (`Starts`).
-/

set_option autoImplicit false

namespace SiphonRtp.Ice

open Machine Datapath Stun

/-! ### Candidates stay where they are -/

namespace Checklist

/-- The candidates of the pairs, which no call changes. -/
def candidates (checklist : Checklist) : List (Candidate × Candidate) :=
  checklist.map CandidatePair.candidates

theorem map_modify_of_forall {α β : Type} {f : α → β} {g : α → α} (hg : ∀ a, f (g a) = f a)
    (list : List α) (index : ℕ) : (list.modify index g).map f = list.map f := by
  refine List.ext_getElem? fun position ↦ ?_
  rw [List.getElem?_map, List.getElem?_map, List.getElem?_modify]
  cases list[position]? with
  | none => rfl
  | some a =>
    by_cases hposition : index = position
    · simp [hposition, hg]
    · simp [hposition]

@[simp] theorem candidates_nominate (checklist : Checklist) (index : ℕ) :
    (checklist.nominate index).candidates = checklist.candidates := by
  refine map_modify_of_forall ?_ checklist index
  exact fun _ ↦ rfl

section States

variable {β : Type} {f : CandidatePair → β}
  (hf : ∀ (pair : CandidatePair) (state : PairState), f { pair with state := state } = f pair)
  (checklist : Checklist)

include hf

/-- What does not read the state of a pair is kept by what writes states. -/
theorem map_setState (index : ℕ) (state : PairState) :
    (checklist.setState index state).map f = checklist.map f :=
  map_modify_of_forall (fun pair ↦ hf pair state) checklist index

theorem map_unfreezeFoundation (foundation : Bytes × Bytes) :
    (checklist.unfreezeFoundation foundation).map f = checklist.map f := by
  unfold unfreezeFoundation
  rw [List.map_map]
  refine List.map_congr_left fun pair _ ↦ ?_
  rw [Function.comp_apply]
  split_ifs
  · exact hf pair _
  · rfl

theorem map_startFirst (started : List (Bytes × Bytes)) (order : List ℕ) :
    (startFirst started checklist order).map f = checklist.map f := by
  induction order generalizing started checklist with
  | nil => rfl
  | cons index rest ih =>
    unfold startFirst
    split
    · exact ih checklist started
    · split_ifs
      · exact ih checklist started
      · rw [ih]
        exact map_setState hf checklist index .waiting

theorem map_succeed (agent : IceAgent) (valid : ℕ) :
    (agent.succeed valid).checklist.map f = agent.checklist.map f := by
  unfold IceAgent.succeed
  dsimp only
  cases (agent.checklist.setState valid .succeeded)[valid]? with
  | none => exact map_setState hf _ _ _
  | some pair => exact (map_unfreezeFoundation hf _ _).trans (map_setState hf _ _ _)

end States

@[simp] theorem candidates_setState (checklist : Checklist) (index : ℕ) (state : PairState) :
    (checklist.setState index state).candidates = checklist.candidates :=
  map_setState (fun _ _ ↦ rfl) checklist index state

@[simp] theorem candidates_reprice (checklist : Checklist) (controlling : Bool) :
    Checklist.candidates (checklist.map (CandidatePair.reprice controlling)) =
      checklist.candidates := by
  unfold candidates
  rw [List.map_map]
  rfl

theorem candidates_concat (checklist : Checklist) (pair : CandidatePair) :
    checklist.candidates <+: Checklist.candidates (checklist ++ [pair]) := by
  unfold candidates
  rw [List.map_append]
  exact List.prefix_append _ _

/-- A pair keeps its candidates in a list that goes on with the same ones. -/
theorem candidates_at {before after : Checklist}
    (hcandidates : before.candidates <+: after.candidates) {index : ℕ}
    {pair : Candidate × Candidate} (hpair : before.candidates[index]? = some pair) :
    after.candidates[index]? = some pair := by
  obtain ⟨rest, hrest⟩ := hcandidates
  have hlt : index < before.candidates.length := (List.getElem?_eq_some_iff.mp hpair).1
  rw [← hrest, List.getElem?_append_left hlt, hpair]

end Checklist

namespace IceAgent

theorem state_setState (agent : IceAgent) (state : IceState) :
    (agent.setState state).1 = { agent with state := state } := by
  unfold setState
  split_ifs with hsame
  · rw [← hsame]
  · rfl

theorem exists_state {agent : IceAgent} {index : ℕ} (hindex : index < agent.checklist.length) :
    ∃ state, agent.checklist.stateAt index = some state :=
  Option.isSome_iff_exists.mp ((Checklist.stateAt_isSome_iff agent.checklist index).mpr hindex)

@[simp] theorem candidates_succeed (agent : IceAgent) (valid : ℕ) :
    (agent.succeed valid).checklist.candidates = agent.checklist.candidates :=
  Checklist.map_succeed (fun _ _ ↦ rfl) agent valid

/-- A check that is there after another was dropped was there before. -/
theorem lookup_of_erase {checks : AList fun _ : ℕ ↦ OutstandingCheck} {index other : ℕ}
    {check : OutstandingCheck} (hcheck : (checks.erase index).lookup other = some check) :
    checks.lookup other = some check := by
  by_cases hother : other = index
  · subst hother
    exact nomatch (AList.lookup_erase _ _).symm.trans hcheck
  · exact (AList.lookup_erase_ne hother).symm.trans hcheck

/-- An agent that does not refuse a request goes on, in its own role or in the other one. -/
theorem switchRole_of_resolveRole (agent : IceAgent) {message : StunMessage} {after : IceAgent}
    (hresolved : agent.resolveRole message = some after) :
    ∃ controlling, agent.switchRole controlling = after := by
  have hsame : agent.switchRole agent.config.controlling = agent := by
    unfold switchRole
    rw [if_pos rfl]
  unfold resolveRole at hresolved
  split at hresolved
  · split_ifs at hresolved
    · exact ⟨_, Option.some.inj hresolved⟩
    · exact ⟨_, hsame.trans (Option.some.inj hresolved)⟩
  · split at hresolved
    · split_ifs at hresolved
      · exact ⟨_, hsame.trans (Option.some.inj hresolved)⟩
      · exact ⟨_, Option.some.inj hresolved⟩
    · exact ⟨_, hsame.trans (Option.some.inj hresolved)⟩

/-- What every new pair keeps, a trickled candidate keeps. -/
theorem addRemoteCandidate_induction {holds : IceAgent → Prop} {remote : Candidate}
    {agent : IceAgent} (hagent : holds agent)
    (hadd : ∀ agent localCandidate, holds agent → holds (agent.addPair remote localCandidate))
    (hstate : ∀ (agent : IceAgent) state, holds agent → holds { agent with state := state }) :
    holds (agent.addRemoteCandidate remote) := by
  have hfold : ∀ (candidates : List Candidate) (agent : IceAgent), holds agent →
      holds (candidates.foldl (addPair remote) agent) := by
    intro candidates
    induction candidates with
    | nil => exact fun _ h ↦ h
    | cons first rest ih => exact fun agent h ↦ ih _ (hadd agent first h)
  unfold addRemoteCandidate
  dsimp only
  split
  · exact hstate _ _ (hfold _ agent hagent)
  · exact hfold _ agent hagent

theorem config_addRemoteCandidate (agent : IceAgent) (remote : Candidate) :
    (agent.addRemoteCandidate remote).config = agent.config := by
  refine @addRemoteCandidate_induction (fun next ↦ next.config = agent.config) remote agent rfl
    (fun _ _ h ↦ ?_) fun _ _ h ↦ h
  unfold addPair
  split
  · exact h
  · exact h

/-! ### Polls -/

/-- The check an agent transmits on a pair. -/
def checkAction (env : Environment) (config : AgentConfig) (pair : Candidate × Candidate)
    (id : TransactionId) (nominating : Bool) : AgentAction :=
  .send pair.1.address pair.2.address
    (bindingRequestIce env.toDigests id config.username config.remoteCredentials.pwd pair.1.priority
      config.role nominating)

/-- A check depends on the configuration and on the candidates of its pair alone. -/
theorem buildCheckAction_eq (env : Environment) (agent : IceAgent) (index : ℕ) (id : TransactionId)
    (nominating : Bool) :
    agent.buildCheckAction env index id nominating =
      agent.checklist.candidates[index]?.map fun pair ↦
        checkAction env agent.config pair id nominating := by
  unfold buildCheckAction Checklist.candidates
  rw [List.getElem?_map, Option.map_map]
  rfl

/-- A check of a pair is outstanding, under its id and with its USE-CANDIDATE flag. -/
def Outstanding (agent : IceAgent) (index : ℕ) (id : TransactionId) (nominating : Bool) : Prop :=
  ∃ check, agent.checks.lookup index = some check ∧ check.transaction.id = id ∧
    check.nominating = nominating

/-- What visiting outstanding checks comes to: it keeps the configuration and the candidates, adds
no check, and transmits checks that were outstanding. -/
structure Visits (env : Environment) (before : IceAgent) (result : IceAgent × List AgentAction) :
    Prop where
  config : result.1.config = before.config
  candidates : result.1.checklist.candidates = before.checklist.candidates
  outstanding : ∀ index id nominating, Outstanding result.1 index id nominating →
    Outstanding before index id nominating
  sent : ∀ action ∈ result.2, (∃ state, action = .stateChanged state) ∨
    ∃ index id nominating pair, Outstanding before index id nominating ∧
      before.checklist.candidates[index]? = some pair ∧
        action = checkAction env before.config pair id nominating

section Polls

variable (env : Environment) (agent : IceAgent) (index now : ℕ)

theorem mem_setState {state : IceState} {action : AgentAction}
    (haction : action ∈ (agent.setState state).2) : action = .stateChanged state := by
  unfold setState at haction
  split_ifs at haction
  · exact nomatch haction
  · exact List.mem_singleton.mp haction

theorem mem_recomputeState {action : AgentAction} (haction : action ∈ agent.recomputeState.2) :
    ∃ state, action = .stateChanged state := by
  unfold recomputeState at haction
  split_ifs at haction
  · exact nomatch haction
  · exact ⟨_, mem_setState agent haction⟩
  · exact ⟨_, mem_setState agent haction⟩
  · exact nomatch haction

/-- `recompute_state` writes the state alone. -/
theorem recomputeState_eq :
    agent.recomputeState.1 = { agent with state := agent.recomputeState.1.state } := by
  have hset : ∀ state, (agent.setState state).1 =
      { agent with state := (agent.setState state).1.state } := by
    intro state
    unfold setState
    split_ifs
    · rfl
    · rfl
  unfold recomputeState
  split_ifs
  · rfl
  · exact hset _
  · exact hset _
  · rfl

/-- A pair that fails loses its check and its transaction, and nothing else changes but the state.
-/
theorem failPair_eq (id : TransactionId) :
    (agent.failPair index id).1 =
      { agent with
        checks := agent.checks.erase index
        transactions := fun other ↦ if other = id then none else agent.transactions other
        checklist := agent.checklist.setState index .failed
        state := (agent.failPair index id).1.state } :=
  recomputeState_eq _

theorem visits_nothing : Visits env agent (agent, []) :=
  ⟨rfl, rfl, fun _ _ _ houtstanding ↦ houtstanding, fun _ haction ↦ nomatch haction⟩

/-- A check that has been polled is outstanding under the same id. -/
theorem outstanding_of_polled {check : OutstandingCheck}
    (hcheck : agent.checks.lookup index = some check) {other : ℕ} {id : TransactionId}
    {nominating : Bool}
    (houtstanding : Outstanding { agent with
      checks := agent.checks.insert index
        { check with transaction := (check.transaction.poll now).2 } } other id nominating) :
    Outstanding agent other id nominating := by
  obtain ⟨found, hfound, rfl, rfl⟩ := houtstanding
  by_cases hother : other = index
  · subst hother
    obtain rfl := Option.some.inj ((AList.lookup_insert _).symm.trans hfound)
    exact ⟨check, hcheck, (poll_frame check.transaction now).1.symm, rfl⟩
  · exact ⟨found, (AList.lookup_insert_ne hother).symm.trans hfound, rfl, rfl⟩

theorem visits_pollCheck : Visits env agent (agent.pollCheck env now index) := by
  unfold pollCheck
  split
  · exact visits_nothing env agent
  rename_i check hcheck
  dsimp only
  split
  · refine ⟨rfl, rfl, fun _ _ _ ↦ outstanding_of_polled agent index now hcheck, ?_⟩
    intro action haction
    rw [Option.mem_toList, buildCheckAction_eq] at haction
    obtain ⟨pair, hpair, rfl⟩ := Option.map_eq_some_iff.mp haction
    exact Or.inr ⟨index, _, _, pair, ⟨check, hcheck, rfl, rfl⟩, hpair, rfl⟩
  · refine ⟨?_, ?_, ?_, ?_⟩
    · rw [failPair_eq]
    · rw [failPair_eq]
      exact Checklist.candidates_setState agent.checklist index .failed
    · intro other id nominating houtstanding
      obtain ⟨found, hfound, hid, hnominating⟩ := houtstanding
      rw [failPair_eq] at hfound
      exact outstanding_of_polled agent index now hcheck
        ⟨found, lookup_of_erase hfound, hid, hnominating⟩
    · intro action haction
      exact Or.inl (mem_recomputeState _ haction)
  · exact ⟨rfl, rfl, fun _ _ _ ↦ outstanding_of_polled agent index now hcheck,
      fun _ haction ↦ nomatch haction⟩

theorem visits_pollChecks (order : List ℕ) :
    Visits env agent (agent.pollChecks env now order) := by
  -- along the order: what a later visit transmits was outstanding before the earlier ones
  induction order generalizing agent with
  | nil => exact visits_nothing env agent
  | cons index rest ih =>
    have hfirst := visits_pollCheck env agent index now
    have hrest := ih (agent.pollCheck env now index).1
    refine ⟨hrest.config.trans hfirst.config, hrest.candidates.trans hfirst.candidates, ?_, ?_⟩
    · exact fun _ _ _ houtstanding ↦ hfirst.outstanding _ _ _ (hrest.outstanding _ _ _ houtstanding)
    · intro action haction
      rcases List.mem_append.mp haction with haction | haction
      · exact hfirst.sent action haction
      · rcases hrest.sent action haction with
          hstate | ⟨index, id, nominating, pair, hout, hpair, heq⟩
        · exact Or.inl hstate
        · rw [hfirst.candidates] at hpair
          rw [hfirst.config] at heq
          exact Or.inr ⟨index, id, nominating, pair, hfirst.outstanding _ _ _ hout, hpair, heq⟩

end Polls

/-- The ids a poll may draw. -/
def Poll.draws (poll : Poll) : List TransactionId := poll.nominationId.toList ++ poll.checkId.toList

/-- What the second half of a poll comes to: nothing is transmitted, or one check is, under an id
that was drawn, of a pair that has none or is not in progress, and it is outstanding from then on.
-/
inductive Starts (env : Environment) (before : IceAgent) (poll : Poll)
    (result : IceAgent × List AgentAction) : Prop
  | nothing (config : result.1.config = before.config)
      (checklist : result.1.checklist = before.checklist)
      (checks : result.1.checks = before.checks)
      (transactions : result.1.transactions = before.transactions) (sent : result.2 = [])
  | check (index : ℕ) (id : TransactionId) (nominating : Bool) (pair : Candidate × Candidate)
      (nominates : nominating = true → before.config.controlling = true)
      (drawn : id ∈ poll.draws)
      (idle : index ∈ before.checks → before.checklist.stateAt index ≠ some .inProgress)
      (found : before.checklist.candidates[index]? = some pair)
      (config : result.1.config = before.config)
      (checklist : result.1.checklist = before.checklist.setState index .inProgress)
      (checks : result.1.checks = before.checks.insert index
        ⟨.start id (.new (max before.config.rtoMs 1)) poll.now, nominating⟩)
      (transactions : result.1.transactions = fun other ↦
        if other = id then some index else before.transactions other)
      (sent : result.2 = [checkAction env before.config pair id nominating])

section Start

variable (env : Environment) (agent : IceAgent) (poll : Poll)

theorem startCheck_eq_some {index now : ℕ} {nominating : Bool} {drawn : Option TransactionId}
    {after : IceAgent} {action : AgentAction}
    (hstart : agent.startCheck env index now nominating drawn = some (after, action)) :
    ∃ id pair, drawn = some id ∧ agent.checklist.candidates[index]? = some pair ∧
      action = checkAction env agent.config pair id nominating ∧
      after = { agent with
        checks := agent.checks.insert index
          ⟨.start id (.new (max agent.config.rtoMs 1)) now, nominating⟩
        transactions := fun other ↦ if other = id then some index else agent.transactions other
        checklist := agent.checklist.setState index .inProgress } := by
  obtain ⟨id, hid, hbuilt⟩ := Option.bind_eq_some_iff.mp hstart
  rw [buildCheckAction_eq, Option.map_map] at hbuilt
  obtain ⟨pair, hpair, heq⟩ := Option.map_eq_some_iff.mp hbuilt
  cases heq
  exact ⟨id, pair, hid, hpair, rfl, rfl⟩

/-- A pair that is taken from the queue has no check. -/
theorem not_mem_of_takeTriggered (queue : List ℕ) {index : ℕ}
    (htaken : (agent.takeTriggered queue).1 = some index) : index ∉ agent.checks := by
  induction queue with
  | nil => exact nomatch htaken
  | cons first rest ih =>
    unfold takeTriggered at htaken
    split_ifs at htaken with hmem
    · exact ih htaken
    · cases htaken
      exact hmem
    · exact ih htaken

theorem starts_pollNext : Starts env agent poll (agent.pollNext env poll) := by
  unfold pollNext
  split_ifs
  · exact .nothing rfl rfl rfl rfl rfl
  dsimp only
  split
  · exact .nothing rfl rfl rfl rfl rfl
  rename_i index hindex
  split
  · exact .nothing rfl rfl rfl rfl rfl
  rename_i after action hstart
  have hidle : index ∈ agent.checks → agent.checklist.stateAt index ≠ some .inProgress := by
    intro hmem hstate
    rcases Option.or_eq_some_iff.mp hindex with htaken | ⟨_, hnext⟩
    · exact not_mem_of_takeTriggered agent _ htaken hmem
    · exact nomatch (Checklist.stateAt_of_nextWaiting hnext).symm.trans hstate
  obtain ⟨id, pair, hid, hpair, rfl, rfl⟩ := startCheck_eq_some env _ hstart
  refine .check index id false pair (fun h ↦ nomatch h) ?_ hidle hpair rfl rfl rfl rfl rfl
  exact List.mem_append_right _ (by rw [hid]; exact List.mem_singleton_self id)

/-- A nominee of a controlling agent has succeeded. -/
theorem nominee_spec {best : ℕ} (hnominee : agent.nominee = some best) :
    agent.config.controlling = true ∧ agent.checklist.stateAt best = some .succeeded := by
  unfold nominee at hnominee
  split_ifs at hnominee with hguard
  exact ⟨hguard.1, (Checklist.mem_valid_iff _ _).mp (List.mem_of_head? hnominee)⟩

theorem starts_pollStart : Starts env agent poll (agent.pollStart env poll) := by
  unfold pollStart
  split
  · exact starts_pollNext env agent poll
  rename_i best hnominee
  dsimp only
  split
  · rename_i after action hstart
    obtain ⟨id, pair, hid, hpair, rfl, rfl⟩ := startCheck_eq_some env _ hstart
    obtain ⟨hcontrolling, hsucceeded⟩ := nominee_spec agent hnominee
    refine .check best id true pair (fun _ ↦ hcontrolling) ?_ (fun _ hstate ↦ ?_) hpair rfl rfl rfl
      rfl rfl
    · exact List.mem_append_left _ (by rw [hid]; exact List.mem_singleton_self id)
    · exact nomatch hsucceeded.symm.trans hstate
  · -- the nomination is given up, and the poll goes on
    cases starts_pollNext env { agent with nominationSent := true } poll with
    | nothing hconfig hchecklist hchecks htransactions hsent =>
      exact .nothing hconfig hchecklist hchecks htransactions hsent
    | check index id nominating pair hnominates hdrawn hidle hfound hconfig hchecklist hchecks
        htransactions hsent =>
      exact .check index id nominating pair hnominates hdrawn hidle hfound hconfig hchecklist
        hchecks htransactions hsent

/-- A poll is nothing, or a visit of the outstanding checks and the start of another. -/
theorem poll_cases :
    agent.poll env poll = (agent, []) ∨
      ∃ visited started, Visits env agent visited ∧ Starts env visited.1 poll started ∧
        agent.poll env poll = (started.1, visited.2 ++ started.2) := by
  unfold IceAgent.poll
  split_ifs
  · exact Or.inl rfl
  · exact Or.inr ⟨_, _, visits_pollChecks env agent poll.now poll.order,
      starts_pollStart env _ poll, rfl⟩

theorem config_poll : (agent.poll env poll).1.config = agent.config := by
  rcases poll_cases env agent poll with hnothing | ⟨visited, started, hvisits, hstarts, hpoll⟩
  · rw [hnothing]
  · have hconfig : started.1.config = visited.1.config := by
      cases hstarts with
      | nothing hconfig => exact hconfig
      | check _ _ _ _ _ _ _ _ hconfig => exact hconfig
    rw [hpoll]
    exact hconfig.trans hvisits.config

end Start

end IceAgent

end SiphonRtp.Ice
