import SiphonRtp.Ice.CheckBytes

/-!
# Selected paths and what proves them

A pair is selected only once it has succeeded, and it succeeds when an answer to a check of ours
comes in from where the check went. `Backed` keeps the evidence: every transaction stands for a
check that was transmitted between the addresses of its pair, and every pair that has succeeded
leads to a remote address that answered. Both are given by what happened earlier in the run
(`CheckedBefore`, `ProvenBefore`), so a selected remote address comes with the datagram that proved
it, from exactly that address (`selected_proven`).

`on_success` compares the source of an answer with the remote address of the pair, but not the
address it arrived on with the local one. The evidence is for the path that was checked if every
answer arrives on the address its check left from (`selected_path_proven`).
-/

set_option autoImplicit false

namespace SiphonRtp.Ice.IceAgent

open Machine Datapath Stun

/-! ### The evidence in a state -/

/-- What an agent relies on is backed: its transactions by checks that were transmitted, the pairs
that have succeeded by remote addresses that are proven. -/
structure Backed (checked : TransactionId → SocketAddr → SocketAddr → Prop)
    (proven : SocketAddr → Prop) (agent : IceAgent) : Prop where
  transactions : ∀ id index, agent.transactions id = some index →
    ∃ pair, agent.checklist.candidates[index]? = some pair ∧
      checked id pair.1.address pair.2.address
  succeeded : ∀ index, agent.checklist.stateAt index = some .succeeded →
    ∃ pair, agent.checklist.candidates[index]? = some pair ∧ proven pair.2.address

section Evidence

variable {checked checked' : TransactionId → SocketAddr → SocketAddr → Prop}
  {proven proven' : SocketAddr → Prop} {agent after : IceAgent}

/-- Evidence is kept by an agent with no new transaction and no new success. -/
theorem Backed.of_subset (hbacked : Backed checked proven agent)
    (hcandidates : agent.checklist.candidates <+: after.checklist.candidates)
    (htransactions : ∀ id index, after.transactions id = some index →
      agent.transactions id = some index)
    (hsucceeded : ∀ index, after.checklist.stateAt index = some .succeeded →
      agent.checklist.stateAt index = some .succeeded) : Backed checked proven after := by
  constructor
  · intro id index hindex
    obtain ⟨pair, hpair, hchecked⟩ := hbacked.transactions id index (htransactions id index hindex)
    exact ⟨pair, Checklist.candidates_at hcandidates hpair, hchecked⟩
  · intro index hindex
    obtain ⟨pair, hpair, hproven⟩ := hbacked.succeeded index (hsucceeded index hindex)
    exact ⟨pair, Checklist.candidates_at hcandidates hpair, hproven⟩

theorem Backed.of_quiet (hbacked : Backed checked proven agent) (hquiet : Quiet agent after) :
    Backed checked proven after :=
  hbacked.of_subset hquiet.candidates (fun _ _ hindex ↦ hquiet.transactions ▸ hindex)
    fun index ↦ (hquiet.succeeded index).mp

/-- There may be more evidence than before. -/
theorem Backed.mono (hbacked : Backed checked proven agent)
    (hchecked : ∀ id source target, checked id source target → checked' id source target)
    (hproven : ∀ remote, proven remote → proven' remote) : Backed checked' proven' agent := by
  constructor
  · intro id index hindex
    obtain ⟨pair, hpair, hold⟩ := hbacked.transactions id index hindex
    exact ⟨pair, hpair, hchecked _ _ _ hold⟩
  · intro index hindex
    obtain ⟨pair, hpair, hold⟩ := hbacked.succeeded index hindex
    exact ⟨pair, hpair, hproven _ hold⟩

/-- A check that ends, with the pair that succeeds proven. -/
theorem Backed.of_settled (hbacked : Backed checked proven agent) {index : ℕ} {id : TransactionId}
    {valid : Option ℕ} (hsettled : Settled agent after index id valid)
    (hvalid : ∀ other, valid = some other →
      ∃ pair, after.checklist.candidates[other]? = some pair ∧ proven pair.2.address) :
    Backed checked proven after := by
  constructor
  · intro other position hposition
    rw [hsettled.transactions] at hposition
    dsimp only at hposition
    split_ifs at hposition
    obtain ⟨pair, hpair, hchecked⟩ := hbacked.transactions other position hposition
    exact ⟨pair, Checklist.candidates_at hsettled.candidates hpair, hchecked⟩
  · intro other hother
    rcases hsettled.succeeded other hother with hnew | hold
    · exact hvalid other hnew
    · obtain ⟨pair, hpair, hproven⟩ := hbacked.succeeded other hold
      exact ⟨pair, Checklist.candidates_at hsettled.candidates hpair, hproven⟩

end Evidence

/-! ### Calls -/

section Calls

variable (env : Environment) {checked : TransactionId → SocketAddr → SocketAddr → Prop}
  {proven : SocketAddr → Prop} {agent : IceAgent}

theorem backed_pollCheck (hbacked : Backed checked proven agent) (now index : ℕ) :
    Backed checked proven (agent.pollCheck env now index).1 := by
  rcases pollCheck_cases env agent now index with
    hsame | ⟨check, polled, _, _, hpolled | hfailed⟩
  · rw [hsame]
    exact hbacked
  · rw [hpolled]
    exact ⟨hbacked.transactions, hbacked.succeeded⟩
  · rw [hfailed, failPair_eq]
    refine hbacked.of_subset ?_ (fun id position hposition ↦ ?_) fun position hposition ↦ ?_
    · exact (Checklist.candidates_setState agent.checklist index .failed) ▸ List.prefix_rfl
    · dsimp only at hposition
      split_ifs at hposition
      exact hposition
    · exact ((Checklist.stateAt_setState_of_ne _ index position (by decide)).mp hposition).2

theorem backed_pollChecks (hbacked : Backed checked proven agent) (now : ℕ) (order : List ℕ) :
    Backed checked proven (agent.pollChecks env now order).1 := by
  induction order generalizing agent with
  | nil => exact hbacked
  | cons index rest ih => exact ih (backed_pollCheck env hbacked now index)

/-- A poll transmits a check under an id, from one address to another. -/
def Transmits (env : Environment) (agent : IceAgent) (event : Event) (id : TransactionId)
    (source target : SocketAddr) : Prop :=
  ∃ poll datagram, event = .poll poll ∧ .send source target datagram ∈ (agent.poll env poll).2 ∧
    transactionIdOf datagram = id

/-- The check that a poll starts is transmitted by it. -/
theorem backed_poll (hbacked : Backed checked proven agent) (poll : Poll)
    (htransmits : ∀ id source target, Transmits env agent (.poll poll) id source target →
      checked id source target) : Backed checked proven (agent.poll env poll).1 := by
  have hsent : ∀ action ∈ (agent.poll env poll).2, ∀ id source target datagram,
      action = .send source target datagram → transactionIdOf datagram = id →
        checked id source target := by
    rintro action haction id source target datagram rfl hid
    exact htransmits id source target ⟨poll, datagram, rfl, haction, hid⟩
  revert hsent
  unfold IceAgent.poll
  split_ifs
  · exact fun _ ↦ hbacked
  intro hsent
  have hvisited := backed_pollChecks env hbacked poll.now poll.order
  cases starts_pollStart env (agent.pollChecks env poll.now poll.order).1 poll with
  | nothing hconfig hchecklist hchecks htransactions =>
    exact hvisited.of_quiet (quiet_of_nothing hconfig hchecklist hchecks htransactions)
  | check index drawn nominating pair _ _ _ hfound _ hchecklist _ htransactions haction =>
    have hcandidates : ((agent.pollChecks env poll.now poll.order).1.pollStart env
        poll).1.checklist.candidates =
          (agent.pollChecks env poll.now poll.order).1.checklist.candidates := by
      rw [hchecklist, Checklist.candidates_setState]
    constructor
    · intro id position hposition
      rw [htransactions] at hposition
      dsimp only at hposition
      rw [hcandidates]
      split_ifs at hposition with hid
      · obtain rfl := Option.some.inj hposition
        refine ⟨pair, hfound, hsent (checkAction env
          (agent.pollChecks env poll.now poll.order).1.config pair drawn nominating)
          (List.mem_append_right _ ?_) id pair.1.address pair.2.address _ rfl ?_⟩
        · rw [haction]
          exact List.mem_singleton_self _
        · rw [hid]
          exact transactionId_bindingRequestIce _ _ _ _ _ _ _
      · exact hvisited.transactions id position hposition
    · intro position hposition
      rw [hchecklist, Checklist.stateAt_setState_of_ne _ _ _ (by decide)] at hposition
      rw [hcandidates]
      exact hvisited.succeeded position hposition.2

/-- A poll selects nothing. -/
theorem not_mem_poll (agent : IceAgent) (poll : Poll) (localAddress remoteAddress : SocketAddr) :
    .selected localAddress remoteAddress ∉ (agent.poll env poll).2 := by
  intro hselected
  rcases poll_cases env agent poll with hnothing | ⟨visited, started, hvisits, hstarts, hpoll⟩
  · rw [hnothing] at hselected
    exact nomatch hselected
  · rw [hpoll] at hselected
    rcases List.mem_append.mp hselected with hvisited | hstarted
    · rcases hvisits.sent _ hvisited with ⟨_, hstate⟩ | ⟨_, _, _, _, _, _, hsend⟩
      · exact nomatch hstate
      · exact nomatch hsend
    · cases hstarts with
      | nothing _ _ _ _ hsilent =>
        rw [hsilent] at hstarted
        exact nomatch hstarted
      | check _ _ _ _ _ _ _ _ _ _ _ _ hsend =>
        rw [hsend] at hstarted
        exact nomatch List.mem_singleton.mp hstarted

/-- One call, from evidence to evidence. Assumes: the evidence afterwards includes the checks that
the call transmits and the remote address of an answer that it handles. Then a remote address that
the call selects is proven. -/
theorem backed_step {checked' : TransactionId → SocketAddr → SocketAddr → Prop}
    {proven' : SocketAddr → Prop} (hbacked : Backed checked proven agent) (event : Event)
    (hchecked : ∀ id source target, checked id source target ∨
      Transmits env agent event id source target → checked' id source target)
    (hproven : ∀ remote, proven remote → proven' remote)
    (hanswered : ∀ localAddress source datagram message index pair,
      event = .datagram localAddress source datagram →
        Answers env agent source datagram message index pair →
          checked message.transactionId pair.localCandidate.address source → proven' source) :
    Backed checked' proven' (agent.step env event).2 ∧
      ∀ localAddress remoteAddress,
        .selected localAddress remoteAddress ∈ (agent.step env event).1 →
          proven' remoteAddress := by
  have hmore := hbacked.mono (fun id source target hold ↦ hchecked id source target (Or.inl hold))
    hproven
  cases event with
  | poll poll =>
    refine ⟨backed_poll env hmore poll fun id source target hsent ↦
      hchecked id source target (Or.inr hsent), fun localAddress remoteAddress hselected ↦ ?_⟩
    exact absurd hselected (not_mem_poll env agent poll localAddress remoteAddress)
  | addRemoteCandidate remote =>
    exact ⟨hmore.of_quiet (quiet_addRemoteCandidate agent remote), fun _ _ hselected ↦
      nomatch hselected⟩
  | datagram localAddress source datagram =>
    cases handled_onDatagram env agent localAddress source datagram with
    | quiet _ hquiet hselected =>
      refine ⟨hmore.of_quiet hquiet, fun announced remote hmem ↦ ?_⟩
      obtain ⟨index, pair, hsucceeded, hpair, rfl⟩ := hselected announced remote hmem
      obtain ⟨found, hfound, hremote⟩ := hmore.succeeded index hsucceeded
      obtain rfl := Option.some.inj (hfound.symm.trans hpair)
      exact hremote
    | ended _ index id hsettled hselected =>
      exact ⟨hmore.of_settled hsettled (fun _ hnone ↦ nomatch hnone),
        fun announced remote hmem ↦ absurd hmem (hselected announced remote)⟩
    | answered message index pair valid hanswers hsettled hremote _ hselected =>
      obtain ⟨candidates, hcandidates, haddress⟩ := hremote
      -- the check that is answered went between the addresses of its pair
      obtain ⟨found, hfound, hsent⟩ := hbacked.transactions _ index hanswers.known
      have hfoundPair : found = pair.candidates := by
        rw [Checklist.candidates, List.getElem?_map, hanswers.found] at hfound
        exact (Option.some.inj hfound).symm
      rw [hfoundPair, CandidatePair.candidates, hanswers.symmetric] at hsent
      have hsource := hanswered localAddress source datagram message index pair rfl hanswers hsent
      refine ⟨hmore.of_settled hsettled fun other hother ↦ ?_, fun announced remote hmem ↦ ?_⟩
      · obtain rfl := Option.some.inj hother
        exact ⟨candidates, hcandidates, haddress ▸ hsource⟩
      · rw [hselected announced remote hmem]
        exact hsource

end Calls

/-! ### Whole runs -/

section Runs

variable (env : Environment) (config : AgentConfig) (now : ℕ) (events : List Event)

/-- Before a position of the run, a check went out under an id, from one address to another. -/
def CheckedBefore (k : ℕ) (id : TransactionId) (source target : SocketAddr) : Prop :=
  ∃ i < k, ∃ event, events[i]? = some event ∧
    Transmits env (final (step env) (.new config now) (events.take i)) event id source target

/-- Before a position of the run, a Binding success arrived on an address, from the remote address,
with the peer's integrity and under the id of a check that had left for there. -/
def ProvenBefore (k : ℕ) (arrived left remote : SocketAddr) : Prop :=
  ∃ j < k, ∃ datagram message, events[j]? = some (.datagram arrived remote datagram) ∧
    parse datagram = .ok message ∧ message.messageType = bindingSuccess ∧
    verifyMessageIntegrity env.toDigests datagram config.remoteCredentials.pwd = true ∧
    CheckedBefore env config now events j message.transactionId left remote

theorem remoteCredentials_final :
    (final (step env) (.new config now) events).config.remoteCredentials =
      config.remoteCredentials := by
  refine final_invariant (fun agent : IceAgent ↦
    agent.config.remoteCredentials = config.remoteCredentials) (fun agent event _ hsame ↦ ?_) rfl
  rw [config_step]
  exact hsame

variable {env config now events}

theorem CheckedBefore.mono {k later : ℕ} (hle : k ≤ later) {id : TransactionId}
    {source target : SocketAddr}
    (hchecked : CheckedBefore env config now events k id source target) :
    CheckedBefore env config now events later id source target := by
  obtain ⟨i, hi, hrest⟩ := hchecked
  exact ⟨i, hi.trans_le hle, hrest⟩

theorem ProvenBefore.mono {k later : ℕ} (hle : k ≤ later) {arrived left remote : SocketAddr}
    (hproven : ProvenBefore env config now events k arrived left remote) :
    ProvenBefore env config now events later arrived left remote := by
  obtain ⟨j, hj, hrest⟩ := hproven
  exact ⟨j, hj.trans_le hle, hrest⟩

/-- What an agent relies on at a position of a run is backed by what happened before, answers having
arrived on addresses related to those their checks left from. -/
def BackedAt (env : Environment) (config : AgentConfig) (now : ℕ) (events : List Event)
    (Related : SocketAddr → SocketAddr → Prop) (k : ℕ) (agent : IceAgent) : Prop :=
  Backed (CheckedBefore env config now events k)
    (fun remote ↦ ∃ arrived left, Related arrived left ∧
      ProvenBefore env config now events k arrived left remote) agent

section Related

variable {Related : SocketAddr → SocketAddr → Prop}
  (harrives : ∀ j localAddress source datagram message index pair,
    events[j]? = some (.datagram localAddress source datagram) →
      Answers env (final (step env) (.new config now) (events.take j)) source datagram message index
        pair → Related localAddress pair.localCandidate.address)

include harrives

theorem backedAt_step {k : ℕ} {event : Event} (hevent : events[k]? = some event)
    (hbacked : BackedAt env config now events Related k
      (final (step env) (.new config now) (events.take k))) :
    BackedAt env config now events Related (k + 1)
        (step env (final (step env) (.new config now) (events.take k)) event).2 ∧
      ∀ localAddress remoteAddress, .selected localAddress remoteAddress ∈
          (step env (final (step env) (.new config now) (events.take k)) event).1 →
        ∃ arrived left, Related arrived left ∧
          ProvenBefore env config now events (k + 1) arrived left remoteAddress := by
  refine backed_step env hbacked event ?_ ?_ ?_
  · rintro id source target (hearlier | hnow)
    · exact hearlier.mono k.le_succ
    · exact ⟨k, k.lt_succ_self, event, hevent, hnow⟩
  · rintro remote ⟨arrived, left, hrelated, hproven⟩
    exact ⟨arrived, left, hrelated, hproven.mono k.le_succ⟩
  · rintro localAddress source datagram message index pair rfl hanswers hchecked
    refine ⟨localAddress, pair.localCandidate.address,
      harrives k localAddress source datagram message index pair hevent hanswers,
      k, k.lt_succ_self, datagram, message, hevent, hanswers.parsed, hanswers.success, ?_, hchecked⟩
    rw [← remoteCredentials_final env config now (events.take k)]
    exact hanswers.signed

theorem selected_related {k : ℕ} {event : Event} (hevent : events[k]? = some event)
    {localAddress remoteAddress : SocketAddr}
    (hselected : .selected localAddress remoteAddress ∈
      (step env (final (step env) (.new config now) (events.take k)) event).1) :
    ∃ arrived left, Related arrived left ∧
      ProvenBefore env config now events (k + 1) arrived left remoteAddress := by
  have hstart : BackedAt env config now events Related 0 (.new config now) := by
    -- a new agent has no transaction, and none of its pairs has succeeded
    refine ⟨(fun _ _ hindex ↦ nomatch hindex), fun index hindex ↦ ?_⟩
    rcases Checklist.stateAt_form hindex with hwaiting | hfrozen
    · exact nomatch hwaiting
    · exact nomatch hfrozen
  have hbacked := final_take_induction (BackedAt env config now events Related) hstart
    (fun k event hevent hbacked ↦ (backedAt_step harrives hevent hbacked).1)
    (List.getElem?_eq_some_iff.mp hevent).1.le
  exact (backedAt_step harrives hevent hbacked).2 localAddress remoteAddress hselected

end Related

/-- A selected path is proven. Assumes: a call at some position of any run of an agent, octets of an
attacker included. Whenever it selects a remote address, a Binding success with the peer's integrity
had come in from there, under the id of a check that had left for there. -/
theorem selected_proven {k : ℕ} {event : Event} (hevent : events[k]? = some event)
    {localAddress remoteAddress : SocketAddr}
    (hselected : .selected localAddress remoteAddress ∈
      (step env (final (step env) (.new config now) (events.take k)) event).1) :
    ∃ arrived left, ProvenBefore env config now events (k + 1) arrived left remoteAddress := by
  obtain ⟨arrived, left, _, hproven⟩ := @selected_related env config now events (fun _ _ ↦ True)
    (fun _ _ _ _ _ _ _ _ _ ↦ trivial) k event hevent localAddress remoteAddress hselected
  exact ⟨arrived, left, hproven⟩

/-- Whenever an agent selects a remote address, a Binding success with the peer's integrity had come
in from exactly there, on the address from which a check with its id had left for there. Assumes:
every answer to a check that the run handles arrives on the local address of the pair that was
checked. -/
theorem selected_path_proven (env : Environment) (config : AgentConfig) (now : ℕ)
    (events : List Event)
    (harrives : ∀ j localAddress source datagram message index pair,
      events[j]? = some (.datagram localAddress source datagram) →
        Answers env (final (step env) (.new config now) (events.take j)) source datagram message
          index pair → localAddress = pair.localCandidate.address)
    (k : ℕ) (event : Event) (hevent : events[k]? = some event)
    (localAddress remoteAddress : SocketAddr)
    (hselected : .selected localAddress remoteAddress ∈
      (step env (final (step env) (.new config now) (events.take k)) event).1) :
    ∃ path, ProvenBefore env config now events (k + 1) path path remoteAddress := by
  obtain ⟨arrived, left, rfl, hproven⟩ := selected_related harrives hevent hselected
  exact ⟨arrived, hproven⟩

end Runs

/-- The sample agent with a second address. -/
def twoHomedConfig : AgentConfig :=
  { sampleConfig true 1 with
    localCandidates := [hostCandidate (.v4 1 4000), hostCandidate (.v4 3 4000)] }

/-- Its first check and the nominating one are answered on some address. -/
def selectingRun (arrived : SocketAddr) : List Event :=
  let success id := bindingSuccessResponse sampleEnvironment.toDigests id (.v4 1 4000) (some [0x72])
  [.poll ⟨0, [], none, some (sampleId 1)⟩, .datagram arrived (.v4 2 5000) (success (sampleId 1)),
    .poll ⟨1, [], some (sampleId 2), none⟩, .datagram arrived (.v4 2 5000) (success (sampleId 2))]

/-- The answers arrive where the checks left from, and the path is proven. -/
theorem selected_path_proven_host :
    .selected (.v4 1 4000) (.v4 2 5000) ∈ (step sampleEnvironment (final (step sampleEnvironment)
        (.new (sampleConfig true 1) 0) ((selectingRun (.v4 1 4000)).take 3))
        (sampleSuccess (sampleId 2))).1 ∧
      ∃ path, ProvenBefore sampleEnvironment (sampleConfig true 1) 0 (selectingRun (.v4 1 4000)) 4
        path path (.v4 2 5000) := by
  have hselected : .selected (.v4 1 4000) (.v4 2 5000) ∈ (step sampleEnvironment
      (final (step sampleEnvironment) (.new (sampleConfig true 1) 0)
        ((selectingRun (.v4 1 4000)).take 3)) (sampleSuccess (sampleId 2))).1 := by decide
  refine ⟨hselected, selected_path_proven sampleEnvironment (sampleConfig true 1) 0
    (selectingRun (.v4 1 4000)) ?_ 3 (sampleSuccess (sampleId 2)) rfl _ _ hselected⟩
  intro j localAddress source datagram message index pair hevent hanswers
  -- the agent has one local address throughout
  have hhosts : ∀ j < 4, ∀ pair ∈ (final (step sampleEnvironment) (.new (sampleConfig true 1) 0)
      ((selectingRun (.v4 1 4000)).take j)).checklist,
        pair.localCandidate.address = .v4 1 4000 := by decide
  rw [hhosts j (List.getElem?_eq_some_iff.mp hevent).1 pair (List.mem_of_getElem? hanswers.found)]
  match j, hevent with
  | 1, rfl => rfl
  | 3, rfl => rfl

/-- Answers on another address than the checks left from still prove the remote one. -/
theorem selected_proven_crossed : ∃ arrived left, ProvenBefore sampleEnvironment twoHomedConfig 0
    (selectingRun (.v4 3 4000)) 4 arrived left (.v4 2 5000) :=
  @selected_proven _ _ _ _ 3 _ rfl (.v4 1 4000) _ (by decide)

/-- The checks leave from one address and the answers arrive on the other: the path is selected, and
nothing proves it. -/
theorem crossed_answers_select :
    .selected (.v4 1 4000) (.v4 2 5000) ∈ (step sampleEnvironment (final (step sampleEnvironment)
        (.new twoHomedConfig 0) ((selectingRun (.v4 3 4000)).take 3))
        (.datagram (.v4 3 4000) (.v4 2 5000) (bindingSuccessResponse sampleEnvironment.toDigests
          (sampleId 2) (.v4 1 4000) (some [0x72])))).1 ∧
      ¬ ∃ path, ProvenBefore sampleEnvironment twoHomedConfig 0 (selectingRun (.v4 3 4000)) 4 path
        path (.v4 2 5000) := by
  refine ⟨by decide, ?_⟩
  rintro ⟨path, j, hj, datagram, message, hevent, _, _, _, i, hi, event, hsent, poll, check, rfl,
    hsend, _⟩
  have hpath : path = .v4 3 4000 := by
    obtain rfl | rfl | rfl | rfl : j = 0 ∨ j = 1 ∨ j = 2 ∨ j = 3 := by omega
    · cases hevent
    · cases hevent
      rfl
    · cases hevent
    · cases hevent
      rfl
  subst hpath
  have hlt : i < 3 := Nat.lt_of_lt_of_le hi (Nat.le_of_lt_succ hj)
  -- nothing leaves from the second address
  have hleft : ∀ i < 3, ∀ poll, (selectingRun (.v4 3 4000))[i]? = some (.poll poll) →
      ((final (step sampleEnvironment) (.new twoHomedConfig 0)
        ((selectingRun (.v4 3 4000)).take i)).poll sampleEnvironment poll).2.all (fun
          | .send source _ _ => source ≠ .v4 3 4000
          | .stateChanged _ => true
          | .selected _ _ => true) = true := by
    intro i hi poll hpoll
    obtain rfl | rfl | rfl : i = 0 ∨ i = 1 ∨ i = 2 := by omega
    · cases hpoll
      decide
    · cases hpoll
    · cases hpoll
      decide
  exact of_decide_eq_true (List.all_eq_true.mp (hleft i hlt poll hsent) _ hsend) rfl

end SiphonRtp.Ice.IceAgent
