import SiphonRtp.Ice.Frames

/-!
# What a datagram can do to the pairs

Three things, as far as the outstanding checks and the states of the pairs go. Most datagrams are
quiet (`Quiet`): no check starts or ends, no pair enters or leaves progress, and none succeeds. An
answer to a check ends it (`Settled`): its pair has failed or is to be checked again, or the answer
is a success (`Answers`) and some pair has succeeded, the checked one or the one that
`discover_local_reflexive` builds from it.

`handled_onDatagram` says that nothing else happens, and which pairs are selected on the way. A
success is recorded on another pair than the checked one exactly if it reveals an address that is
none of ours (`Foreign`).
-/

set_option autoImplicit false

namespace SiphonRtp.Ice

open Machine Datapath Stun

namespace Checklist

/-! ### States that are entered and left -/

section States

variable (checklist : Checklist) (index other : ℕ)

/-- Only the pair that is written leaves or enters a state. -/
theorem stateAt_setState_of_ne {state wanted : PairState} (hstate : state ≠ wanted) :
    (checklist.setState index state).stateAt other = some wanted ↔
      other ≠ index ∧ checklist.stateAt other = some wanted := by
  rw [stateAt_setState]
  by_cases hother : index = other
  · subst hother
    cases checklist.stateAt index with
    | none => simp
    | some old => simp [hstate]
  · rw [if_neg hother]
    exact ⟨fun h ↦ ⟨Ne.symm hother, h⟩, fun h ↦ h.2⟩

/-- Unfreezing concerns frozen pairs. -/
theorem stateAt_unfreezeFoundation (foundation : Bytes × Bytes) {wanted : PairState}
    (hfrozen : wanted ≠ .frozen) (hwaiting : wanted ≠ .waiting) :
    (checklist.unfreezeFoundation foundation).stateAt other = some wanted ↔
      checklist.stateAt other = some wanted := by
  unfold unfreezeFoundation stateAt
  rw [List.getElem?_map]
  cases checklist[other]? with
  | none => simp
  | some pair =>
    by_cases hpair : pair.state = .frozen ∧ pair.foundation = foundation
    · simp [hpair, hfrozen.symm, hwaiting.symm]
    · simp [hpair]

/-- A pair at the end of the list that is neither frozen nor waiting was there before. -/
theorem stateAt_concat_of_ne {pair : CandidatePair} {wanted : PairState}
    (hpair : pair.state ≠ wanted) :
    Checklist.stateAt (checklist ++ [pair]) other = some wanted ↔
      checklist.stateAt other = some wanted := by
  rw [stateAt_concat]
  by_cases hother : other = checklist.length
  · subst hother
    rw [if_pos rfl]
    have hnone : checklist.stateAt checklist.length = none := by
      unfold stateAt
      rw [List.getElem?_eq_none le_rfl]
      rfl
    rw [hnone]
    exact iff_of_false (fun h ↦ hpair (Option.some.inj h)) (fun h ↦ nomatch h)
  · rw [if_neg hother]

theorem candidates_concat_length (pair : CandidatePair) :
    (Checklist.candidates (checklist ++ [pair]))[checklist.length]? = some pair.candidates := by
  rw [candidates, List.getElem?_map, List.getElem?_concat_length]
  rfl

/-- A pair with a state has candidates. -/
theorem exists_candidates {state : PairState} (hstate : checklist.stateAt index = some state) :
    ∃ pair, checklist.candidates[index]? = some pair := by
  obtain ⟨pair, hpair, _⟩ := Option.map_eq_some_iff.mp hstate
  exact ⟨pair.candidates, by rw [candidates, List.getElem?_map, hpair]; rfl⟩

end States

end Checklist

namespace IceAgent

/-! ### Quiet calls -/

/-- Nothing but the role changes in the configuration, no check starts or ends, and no pair enters
or leaves progress or succeeds. -/
structure Quiet (before after : IceAgent) : Prop where
  config : after.config = { before.config with controlling := after.config.controlling }
  checks : after.checks = before.checks
  transactions : after.transactions = before.transactions
  candidates : before.checklist.candidates <+: after.checklist.candidates
  inProgress : ∀ index, after.checklist.stateAt index = some .inProgress ↔
    before.checklist.stateAt index = some .inProgress
  succeeded : ∀ index, after.checklist.stateAt index = some .succeeded ↔
    before.checklist.stateAt index = some .succeeded

theorem Quiet.refl (agent : IceAgent) : Quiet agent agent :=
  ⟨rfl, rfl, rfl, List.prefix_rfl, fun _ ↦ Iff.rfl, fun _ ↦ Iff.rfl⟩

theorem Quiet.trans {first second third : IceAgent} (hfirst : Quiet first second)
    (hsecond : Quiet second third) : Quiet first third where
  config := by rw [hsecond.config, hfirst.config]
  checks := hsecond.checks.trans hfirst.checks
  transactions := hsecond.transactions.trans hfirst.transactions
  candidates := hfirst.candidates.trans hsecond.candidates
  inProgress := fun index ↦ (hsecond.inProgress index).trans (hfirst.inProgress index)
  succeeded := fun index ↦ (hsecond.succeeded index).trans (hfirst.succeeded index)

section Quiet

variable (env : Environment) (agent : IceAgent) (index : ℕ)

/-- What keeps the pairs and the tables is quiet, whatever else it writes. -/
theorem quiet_of_eq {before after : IceAgent}
    (hconfig : after.config = { before.config with controlling := after.config.controlling })
    (hchecks : after.checks = before.checks)
    (htransactions : after.transactions = before.transactions)
    (hcandidates : after.checklist.candidates = before.checklist.candidates)
    (hstates : ∀ index, after.checklist.stateAt index = before.checklist.stateAt index) :
    Quiet before after :=
  ⟨hconfig, hchecks, htransactions, hcandidates ▸ List.prefix_rfl, fun index ↦ by rw [hstates],
    fun index ↦ by rw [hstates]⟩

/-- A pair that is neither in progress nor has succeeded may be appended. -/
theorem quiet_concat {after : IceAgent} {pair : CandidatePair}
    (hpair : pair.state = .frozen ∨ pair.state = .waiting)
    (hconfig : after.config = agent.config) (hchecks : after.checks = agent.checks)
    (htransactions : after.transactions = agent.transactions)
    (hchecklist : after.checklist = agent.checklist ++ [pair]) : Quiet agent after := by
  have hne : pair.state ≠ .inProgress ∧ pair.state ≠ .succeeded := by
    rcases hpair with hpair | hpair
    · rw [hpair]
      decide
    · rw [hpair]
      decide
  refine ⟨by rw [hconfig], hchecks, htransactions, ?_, fun other ↦ ?_, fun other ↦ ?_⟩
  · rw [hchecklist]
    exact Checklist.candidates_concat agent.checklist pair
  · rw [hchecklist]
    exact Checklist.stateAt_concat_of_ne agent.checklist other hne.1
  · rw [hchecklist]
    exact Checklist.stateAt_concat_of_ne agent.checklist other hne.2

theorem quiet_recomputeState : Quiet agent agent.recomputeState.1 := by
  rw [recomputeState_eq]
  exact quiet_of_eq rfl rfl rfl rfl fun _ ↦ rfl

theorem quiet_select : Quiet agent (agent.select index).1 := by
  unfold select
  split_ifs
  · exact .refl agent
  · rw [state_setState]
    exact quiet_of_eq rfl rfl rfl rfl fun _ ↦ rfl

theorem quiet_switchRole (controlling : Bool) : Quiet agent (agent.switchRole controlling) := by
  unfold switchRole
  split_ifs
  · exact .refl agent
  · exact quiet_of_eq rfl rfl rfl (Checklist.candidates_reprice _ _)
      fun other ↦ Checklist.stateAt_reprice _ other controlling

/-- A pair that is not in progress and has not succeeded may be queued. -/
theorem quiet_trigger {state : PairState} (hstate : agent.checklist.stateAt index = some state)
    (hne : state ≠ .inProgress ∧ state ≠ .succeeded) : Quiet agent (agent.trigger index) := by
  have hkeeps : ∀ wanted, wanted ≠ .waiting → state ≠ wanted → ∀ other,
      (agent.checklist.setState index .waiting).stateAt other = some wanted ↔
        agent.checklist.stateAt other = some wanted := by
    intro wanted hwanted hold other
    rw [Checklist.stateAt_setState_of_ne _ _ _ (Ne.symm hwanted)]
    refine ⟨fun h ↦ h.2, fun h ↦ ⟨?_, h⟩⟩
    rintro rfl
    exact hold (Option.some.inj (hstate.symm.trans h))
  exact ⟨rfl, rfl, rfl, Checklist.candidates_setState agent.checklist index .waiting ▸
    List.prefix_rfl, hkeeps .inProgress (by decide) hne.1, hkeeps .succeeded (by decide) hne.2⟩

theorem quiet_triggerCheck : Quiet agent (agent.triggerCheck index) := by
  unfold triggerCheck
  split
  · rename_i hstate
    exact quiet_trigger agent index hstate (by decide)
  · rename_i hstate
    exact quiet_trigger agent index hstate (by decide)
  · rename_i hstate
    exact quiet_trigger agent index hstate (by decide)
  · exact .refl agent

theorem quiet_nominate : Quiet agent { agent with checklist := agent.checklist.nominate index } :=
  quiet_of_eq rfl rfl rfl (Checklist.candidates_nominate _ _) fun other ↦
    Checklist.stateAt_nominate agent.checklist index other

theorem quiet_honourNomination (message : StunMessage) :
    Quiet agent (agent.honourNomination message index).1 := by
  unfold honourNomination
  split
  · dsimp only
    have hnominated := (quiet_nominate agent ((agent.generatedValid index).getD index)).trans
      (quiet_nominate _ index)
    split
    · exact hnominated.trans (quiet_select _ _)
    · exact hnominated
  · exact .refl agent

theorem quiet_pairForRequest {localAddress source : SocketAddr} {message : StunMessage}
    {after : IceAgent}
    (hpair : agent.pairForRequest env localAddress source message = some (after, index)) :
    Quiet agent after := by
  unfold pairForRequest at hpair
  split at hpair
  · cases hpair
    exact .refl agent
  · obtain ⟨candidate, _, heq⟩ := Option.map_eq_some_iff.mp hpair
    cases heq
    exact quiet_concat agent (Or.inr rfl) rfl rfl rfl rfl

theorem quiet_addPair (remote localCandidate : Candidate) :
    Quiet agent (agent.addPair remote localCandidate) := by
  unfold addPair
  split
  · exact .refl agent
  · exact quiet_concat agent (Or.inr rfl) rfl rfl rfl rfl

theorem quiet_addRemoteCandidate (remote : Candidate) :
    Quiet agent (agent.addRemoteCandidate remote) :=
  addRemoteCandidate_induction (.refl agent)
    (fun _ candidate h ↦ h.trans (quiet_addPair _ remote candidate))
    (fun _ _ h ↦ h.trans (quiet_of_eq rfl rfl rfl rfl fun _ ↦ rfl))

end Quiet

/-! ### Checks that end -/

/-- The check of a transaction is over. If it has produced no valid pair, its own pair is no longer
in progress; otherwise the valid pair has succeeded, and the other pairs are as they were. -/
structure Settled (before after : IceAgent) (index : ℕ) (id : TransactionId) (valid : Option ℕ) :
    Prop where
  config : after.config = { before.config with controlling := after.config.controlling }
  known : before.transactions id = some index
  checks : after.checks = before.checks.erase index
  transactions : after.transactions =
    fun other ↦ if other = id then none else before.transactions other
  candidates : before.checklist.candidates <+: after.checklist.candidates
  inProgress : ∀ other, after.checklist.stateAt other = some .inProgress ↔
    other ≠ valid.getD index ∧ before.checklist.stateAt other = some .inProgress
  succeeded : ∀ other, after.checklist.stateAt other = some .succeeded →
    valid = some other ∨ before.checklist.stateAt other = some .succeeded

section Settled

variable {before after last : IceAgent} {index : ℕ} {id : TransactionId}

/-- Quiet calls may follow. -/
theorem Settled.quiet {valid : Option ℕ} (hsettled : Settled before after index id valid)
    (hquiet : Quiet after last) : Settled before last index id valid where
  config := by rw [hquiet.config, hsettled.config]
  known := hsettled.known
  checks := hquiet.checks.trans hsettled.checks
  transactions := hquiet.transactions.trans hsettled.transactions
  candidates := hsettled.candidates.trans hquiet.candidates
  inProgress := fun other ↦ (hquiet.inProgress other).trans (hsettled.inProgress other)
  succeeded := fun other hother ↦ hsettled.succeeded other ((hquiet.succeeded other).mp hother)

/-- A check is dropped, and its pair fails or waits. -/
theorem settled_setState (hknown : before.transactions id = some index)
    (hquiet : Quiet (before.dropCheck index id) after) {state : PairState}
    (hstate : state ≠ .inProgress ∧ state ≠ .succeeded) :
    Settled before { after with checklist := after.checklist.setState index state } index id
      none where
  config := hquiet.config
  known := hknown
  checks := hquiet.checks
  transactions := hquiet.transactions
  candidates :=
    (Checklist.candidates_setState after.checklist index state).symm ▸ hquiet.candidates
  inProgress := fun other ↦ by
    rw [Checklist.stateAt_setState_of_ne _ _ _ hstate.1, hquiet.inProgress]
    exact Iff.rfl
  succeeded := fun other hother ↦ by
    rw [Checklist.stateAt_setState_of_ne _ _ _ hstate.2, hquiet.succeeded] at hother
    exact Or.inr hother.2

theorem settled_failPair (hknown : before.transactions id = some index) :
    Settled before (before.failPair index id).1 index id none :=
  (settled_setState hknown (.refl _) (by decide)).quiet (quiet_recomputeState _)

theorem stateAt_succeed (agent : IceAgent) (valid other : ℕ) {wanted : PairState}
    (hfrozen : wanted ≠ .frozen) (hwaiting : wanted ≠ .waiting) :
    (agent.succeed valid).checklist.stateAt other = some wanted ↔
      (agent.checklist.setState valid .succeeded).stateAt other = some wanted := by
  unfold succeed
  dsimp only
  cases (agent.checklist.setState valid .succeeded)[valid]? with
  | none => exact Iff.rfl
  | some pair => exact Checklist.stateAt_unfreezeFoundation _ other _ hfrozen hwaiting

/-- A check that is dropped, and the pair that has succeeded in its stead. -/
theorem settled_succeed (hknown : before.transactions id = some index)
    (hquiet : Quiet (before.dropCheck index id) after) (valid : ℕ) :
    Settled before (after.succeed valid) index id (some valid) where
  config := hquiet.config
  known := hknown
  checks := hquiet.checks
  transactions := hquiet.transactions
  candidates := (candidates_succeed after valid).symm ▸ hquiet.candidates
  inProgress := fun other ↦ by
    rw [stateAt_succeed after valid other (by decide) (by decide),
      Checklist.stateAt_setState_of_ne _ _ _ (by decide), hquiet.inProgress]
    exact Iff.rfl
  succeeded := fun other hother ↦ by
    rw [stateAt_succeed after valid other (by decide) (by decide),
      Checklist.stateAt_setState] at hother
    split_ifs at hother with hvalid
    · exact Or.inl (congrArg some hvalid)
    · exact Or.inr ((hquiet.succeeded other).mp hother)

end Settled

/-! ### Answers -/

/-- A datagram is a Binding success of the peer for the outstanding check of a pair. -/
structure Answers (env : Environment) (agent : IceAgent) (source : SocketAddr) (datagram : Bytes)
    (message : StunMessage) (index : ℕ) (pair : CandidatePair) : Prop where
  parsed : parse datagram = .ok message
  success : message.messageType = bindingSuccess
  known : agent.transactions message.transactionId = some index
  signed : verifyMessageIntegrity env.toDigests datagram agent.config.remoteCredentials.pwd = true
  found : agent.checklist[index]? = some pair
  symmetric : pair.remoteCandidate.address = source
  outstanding : index ∈ agent.checks

/-- A datagram is no answer to a check. -/
def Unanswered (env : Environment) (agent : IceAgent) (source : SocketAddr) (datagram : Bytes) :
    Prop :=
  ∀ message index pair, ¬ Answers env agent source datagram message index pair

/-- A message reveals an address of ours that is none of our candidates. -/
def Foreign (agent : IceAgent) (message : StunMessage) : Prop :=
  ∃ mapped, message.xorMappedAddress = some mapped ∧ agent.localCandidateFor mapped = none

section Answers

variable (env : Environment) (agent : IceAgent)

/-- An address that is no local candidate is in no pair. -/
theorem find_of_localCandidateFor {mapped : SocketAddr}
    (hforeign : agent.localCandidateFor mapped = none) (remote : SocketAddr) :
    agent.checklist.find mapped remote = none := by
  have hpairs := (Option.or_eq_none_iff.mp hforeign).2
  rw [Option.map_eq_none_iff, List.find?_eq_none] at hpairs
  rw [Checklist.find, List.findIdx?_eq_none_iff]
  intro pair hpair
  have hne := hpairs pair hpair
  simp only [Bool.not_eq_true] at hne
  rw [hne, Bool.false_and]

/-- The valid pair that a success produces has the remote candidate of the checked one, and is
another pair exactly if the success reveals a foreign address. -/
theorem validPair_spec {index : ℕ} {checked : CandidatePair}
    (hchecked : agent.checklist[index]? = some checked) (message : StunMessage) :
    Quiet agent (agent.validPair env index checked message).1 ∧
      (∃ pair, (agent.validPair env index checked message).1.checklist.candidates[
          (agent.validPair env index checked message).2]? = some pair ∧
        pair.2 = checked.remoteCandidate) ∧
      ((agent.validPair env index checked message).2 = index ↔ ¬ Foreign agent message) := by
  have hsame : ∃ pair, agent.checklist.candidates[index]? = some pair ∧
      pair.2 = checked.remoteCandidate :=
    ⟨checked.candidates, by rw [Checklist.candidates, List.getElem?_map, hchecked]; rfl, rfl⟩
  unfold validPair
  split
  · rename_i mapped hmapped
    split_ifs with hnone
    · have hforeign := Option.isNone_iff_eq_none.mp hnone
      unfold discoverLocalReflexive
      rw [find_of_localCandidateFor agent hforeign]
      refine ⟨quiet_concat agent (Or.inl rfl) rfl rfl rfl rfl, ?_, ?_⟩
      · exact ⟨_, Checklist.candidates_concat_length agent.checklist _, rfl⟩
      · have hlt := (List.getElem?_eq_some_iff.mp hchecked).1
        exact iff_of_false hlt.ne' fun hnot ↦ hnot ⟨mapped, hmapped, hforeign⟩
    · refine ⟨.refl agent, hsame, iff_of_true rfl ?_⟩
      rintro ⟨other, hother, hforeign⟩
      obtain rfl := Option.some.inj (hmapped.symm.trans hother)
      exact hnone (Option.isNone_iff_eq_none.mpr hforeign)
  · rename_i hmapped
    refine ⟨.refl agent, hsame, iff_of_true rfl ?_⟩
    rintro ⟨other, hother, _⟩
    exact Option.some_ne_none other (hother.symm.trans hmapped)

theorem quiet_inherit (index valid : ℕ) : Quiet agent (agent.inherit index valid) := by
  unfold inherit
  split_ifs
  · exact .refl agent
  · exact quiet_of_eq rfl rfl rfl (Checklist.candidates_nominate _ _) fun other ↦
      Checklist.stateAt_nominate agent.checklist valid other
  · exact quiet_of_eq rfl rfl rfl rfl fun _ ↦ rfl

theorem quiet_conclude (valid : ℕ) (nominating : Bool) :
    Quiet agent (agent.conclude valid nominating).1 := by
  unfold conclude
  split_ifs
  · exact (quiet_nominate agent valid).trans (quiet_select _ valid)
  · exact quiet_recomputeState agent

/-- What a selection announces. -/
theorem mem_select {index : ℕ} {localAddress remoteAddress : SocketAddr}
    (hselected : .selected localAddress remoteAddress ∈ (agent.select index).2) :
    ∃ pair, agent.checklist.candidates[index]? = some pair ∧ pair.2.address = remoteAddress := by
  unfold select at hselected
  split_ifs at hselected
  · exact absurd hselected List.not_mem_nil
  · rcases List.mem_append.mp hselected with hannounced | hstate
    · rw [Option.mem_toList] at hannounced
      obtain ⟨pair, hpair, heq⟩ := Option.map_eq_some_iff.mp hannounced
      cases heq
      exact ⟨pair.candidates, by rw [Checklist.candidates, List.getElem?_map, hpair]; rfl, rfl⟩
    · cases mem_setState _ hstate

theorem mem_conclude {valid : ℕ} {nominating : Bool} {localAddress remoteAddress : SocketAddr}
    (hselected : .selected localAddress remoteAddress ∈ (agent.conclude valid nominating).2) :
    ∃ pair, agent.checklist.candidates[valid]? = some pair ∧ pair.2.address = remoteAddress := by
  unfold conclude at hselected
  split_ifs at hselected
  · have hpair := mem_select _ hselected
    rwa [Checklist.candidates_nominate] at hpair
  · obtain ⟨state, hstate⟩ := mem_recomputeState _ hselected
    exact nomatch hstate

/-- A nomination selects a pair that has succeeded. -/
theorem mem_honourNomination {message : StunMessage} {index : ℕ}
    {localAddress remoteAddress : SocketAddr}
    (hselected : .selected localAddress remoteAddress ∈
      (agent.honourNomination message index).2) :
    ∃ valid pair, agent.checklist.stateAt valid = some .succeeded ∧
      agent.checklist.candidates[valid]? = some pair ∧ pair.2.address = remoteAddress := by
  unfold honourNomination at hselected
  split_ifs at hselected
  · dsimp only at hselected
    split_ifs at hselected with hsucceeded
    · obtain ⟨pair, hpair, haddress⟩ := mem_select _ hselected
      rw [Checklist.candidates_nominate, Checklist.candidates_nominate] at hpair
      rw [Checklist.stateAt_nominate, Checklist.stateAt_nominate] at hsucceeded
      exact ⟨_, pair, hsucceeded, hpair, haddress⟩
    · exact nomatch hselected
  · exact nomatch hselected

/-- A success is recorded on a pair: the check is over, the pair has succeeded, and no other pair is
selected. -/
theorem recorded_spec {before discovered : IceAgent} {index valid : ℕ} {id : TransactionId}
    {candidates : Candidate × Candidate} (hknown : before.transactions id = some index)
    (hquiet : Quiet (before.dropCheck index id) discovered)
    (hvalid : discovered.checklist.candidates[valid]? = some candidates) (nominating : Bool) :
    let last := ((discovered.inherit index valid).succeed valid).conclude valid nominating
    Settled before last.1 index id (some valid) ∧
      last.1.checklist.candidates[valid]? = some candidates ∧
      ∀ localAddress remoteAddress, .selected localAddress remoteAddress ∈ last.2 →
        remoteAddress = candidates.2.address := by
  intro last
  have hinherit := quiet_inherit discovered index valid
  have hlast := quiet_conclude ((discovered.inherit index valid).succeed valid) valid nominating
  have hsucceeded : ((discovered.inherit index valid).succeed valid).checklist.candidates[valid]? =
      some candidates := by
    rw [candidates_succeed]
    exact Checklist.candidates_at hinherit.candidates hvalid
  refine ⟨(settled_succeed hknown (hquiet.trans hinherit) valid).quiet hlast,
    Checklist.candidates_at hlast.candidates hsucceeded, fun announced remote hselected ↦ ?_⟩
  obtain ⟨found, hfound, haddress⟩ := mem_conclude _ hselected
  obtain rfl := Option.some.inj (hsucceeded.symm.trans hfound)
  exact haddress.symm

end Answers

/-! ### All of them -/

/-- What a datagram can do. -/
inductive Handled (env : Environment) (agent : IceAgent) (source : SocketAddr) (datagram : Bytes)
    (result : IceAgent × List AgentAction) : Prop
  /-- No check ends. A pair that is selected had succeeded. -/
  | quiet (unanswered : Unanswered env agent source datagram) (quiet : Quiet agent result.1)
      (selected : ∀ localAddress remoteAddress, .selected localAddress remoteAddress ∈ result.2 →
        ∃ index pair, agent.checklist.stateAt index = some .succeeded ∧
          agent.checklist.candidates[index]? = some pair ∧ pair.2.address = remoteAddress)
  /-- A check ends without success. -/
  | ended (unanswered : Unanswered env agent source datagram) (index : ℕ) (id : TransactionId)
      (settled : Settled agent result.1 index id none)
      (selected : ∀ localAddress remoteAddress, .selected localAddress remoteAddress ∉ result.2)
  /-- A check succeeds. A pair that is selected now leads to where the answer came from. -/
  | answered (message : StunMessage) (index : ℕ) (pair : CandidatePair) (valid : ℕ)
      (answers : Answers env agent source datagram message index pair)
      (settled : Settled agent result.1 index message.transactionId (some valid))
      (remote : ∃ candidates, result.1.checklist.candidates[valid]? = some candidates ∧
        candidates.2.address = source)
      (foreign : valid = index ↔ ¬ Foreign agent message)
      (selected : ∀ localAddress remoteAddress, .selected localAddress remoteAddress ∈ result.2 →
        remoteAddress = source)

section Handled

variable (env : Environment) (agent : IceAgent) (localAddress source : SocketAddr)
  (datagram : Bytes)

theorem handled_nothing (hunanswered : Unanswered env agent source datagram) :
    Handled env agent source datagram (agent, []) :=
  .quiet hunanswered (.refl agent) fun _ _ hselected ↦ nomatch hselected

/-- Only a Binding success is an answer. -/
theorem unanswered_of_ne {message : StunMessage} (hparsed : parse datagram = .ok message)
    (hne : message.messageType ≠ bindingSuccess) : Unanswered env agent source datagram := by
  intro other index pair hanswers
  obtain rfl := Except.ok.inj (hparsed.symm.trans hanswers.parsed)
  exact hne hanswers.success

theorem handled_onRequest {message : StunMessage} (hparsed : parse datagram = .ok message)
    (hrequest : message.isBindingRequest = true) :
    Handled env agent source datagram
      (agent.onRequest env localAddress source datagram message) := by
  have hunanswered := unanswered_of_ne env agent source datagram hparsed (by
    rw [eq_of_beq hrequest]
    decide)
  unfold onRequest
  split
  · exact handled_nothing env agent source datagram hunanswered
  split
  · exact .quiet hunanswered (.refl agent) fun _ _ hselected ↦ by simp at hselected
  rename_i after hresolved
  obtain ⟨controlling, rfl⟩ := switchRole_of_resolveRole agent hresolved
  have hswitched := quiet_switchRole agent controlling
  split
  · exact .quiet hunanswered hswitched fun _ _ hselected ↦ nomatch hselected
  rename_i paired index hpaired
  have hquiet := hswitched.trans (quiet_pairForRequest env _ index hpaired)
  refine .quiet hunanswered ((hquiet.trans (quiet_honourNomination paired index message)).trans
    (quiet_triggerCheck _ index)) fun announced remote hselected ↦ ?_
  rcases List.mem_cons.mp hselected with hsend | hselected
  · exact nomatch hsend
  · obtain ⟨valid, pair, hsucceeded, hpair, haddress⟩ := mem_honourNomination paired hselected
    have hbefore := (hquiet.succeeded valid).mp hsucceeded
    obtain ⟨found, hfound⟩ := Checklist.exists_candidates _ valid hbefore
    obtain rfl := Option.some.inj ((Checklist.candidates_at hquiet.candidates hfound).symm.trans
      hpair)
    exact ⟨valid, found, hbefore, hfound, haddress⟩

theorem not_mem_failPair (index : ℕ) (id : TransactionId) (announced remote : SocketAddr) :
    .selected announced remote ∉ (agent.failPair index id).2 := by
  intro hselected
  obtain ⟨state, hstate⟩ := mem_recomputeState _ hselected
  exact nomatch hstate

theorem handled_onSuccess {message : StunMessage} (hparsed : parse datagram = .ok message)
    (hsuccess : message.messageType = bindingSuccess) :
    Handled env agent source datagram (agent.onSuccess env source datagram message) := by
  -- an answer passes every check below, so a branch that fails one has none
  have hmessage : ∀ {other index pair}, Answers env agent source datagram other index pair →
      other = message := fun hanswers ↦ Except.ok.inj (hanswers.parsed.symm.trans hparsed)
  unfold onSuccess
  split
  · rename_i hunknown
    refine handled_nothing env agent source datagram fun other index pair hanswers ↦ ?_
    obtain rfl := hmessage hanswers
    exact nomatch hunknown.symm.trans hanswers.known
  rename_i index hknown
  have hindex : ∀ {other found pair}, Answers env agent source datagram other found pair →
      found = index := by
    intro other found pair hanswers
    obtain rfl := hmessage hanswers
    exact Option.some.inj (hanswers.known.symm.trans hknown)
  split_ifs with hsigned
  · refine handled_nothing env agent source datagram fun other found pair hanswers ↦ ?_
    exact nomatch hsigned.symm.trans hanswers.signed
  split
  · rename_i hnone
    refine handled_nothing env agent source datagram fun other found pair hanswers ↦ ?_
    obtain rfl := hindex hanswers
    exact nomatch hnone.symm.trans hanswers.found
  rename_i pair hpair
  split_ifs with hsource
  · refine .ended (fun other found checked hanswers ↦ hsource ?_) index _
      (settled_failPair hknown) (not_mem_failPair agent index _)
    obtain rfl := hindex hanswers
    obtain rfl := Option.some.inj (hanswers.found.symm.trans hpair)
    exact hanswers.symmetric
  split
  · rename_i hnone
    refine handled_nothing env agent source datagram fun other found checked hanswers ↦ ?_
    obtain rfl := hindex hanswers
    exact AList.lookup_eq_none.mp hnone hanswers.outstanding
  rename_i check hcheck
  have hsymmetric : pair.remoteCandidate.address = source := not_not.mp hsource
  obtain ⟨hquiet, ⟨candidates, hcandidates, hremote⟩, hforeign⟩ :=
    validPair_spec env (agent.dropCheck index message.transactionId) hpair message
  obtain ⟨hsettled, hvalid, hselected⟩ :=
    recorded_spec hknown hquiet hcandidates check.nominating
  have haddress : candidates.2.address = source := by rw [hremote, hsymmetric]
  refine .answered message index pair _ ⟨hparsed, hsuccess, hknown, by simpa using hsigned, hpair,
    hsymmetric, AList.lookup_isSome.mp (by rw [hcheck]; rfl)⟩ hsettled
    ⟨candidates, hvalid, haddress⟩ hforeign
    fun announced remote hmem ↦ (hselected announced remote hmem).trans haddress

theorem handled_onErrorResponse {message : StunMessage}
    (hunanswered : Unanswered env agent source datagram) :
    Handled env agent source datagram (agent.onErrorResponse env datagram message) := by
  unfold onErrorResponse
  split
  · exact handled_nothing env agent source datagram hunanswered
  rename_i index hknown
  split_ifs
  · exact handled_nothing env agent source datagram hunanswered
  · -- the pair waits, in the other role
    refine .ended hunanswered index message.transactionId ?_ fun _ _ hselected ↦ nomatch hselected
    exact (settled_setState hknown (quiet_switchRole _ _) (by decide)).quiet
      (quiet_of_eq rfl rfl rfl rfl fun _ ↦ rfl)
  · exact .ended hunanswered index _ (settled_failPair hknown) (not_mem_failPair agent index _)

theorem handled_onDatagram :
    Handled env agent source datagram (agent.onDatagram env localAddress source datagram) := by
  unfold onDatagram
  split
  · rename_i hparsed
    refine handled_nothing env agent source datagram fun message index pair hanswers ↦ ?_
    exact nomatch hparsed.symm.trans hanswers.parsed
  rename_i message hparsed
  split_ifs with hrequest hsuccess
  · exact handled_onRequest env agent localAddress source datagram hparsed hrequest
  · exact handled_onSuccess env agent source datagram hparsed hsuccess
  · exact handled_onErrorResponse env agent source datagram
      (unanswered_of_ne env agent source datagram hparsed hsuccess)

end Handled

/-! ### Records that are kept -/

/-- The configuration is kept up to the role and the candidates of every pair, and no check is added
or changed. -/
structure Extends (before after : IceAgent) : Prop where
  config : after.config = { before.config with controlling := after.config.controlling }
  candidates : before.checklist.candidates <+: after.checklist.candidates
  checks : ∀ index check, after.checks.lookup index = some check →
    before.checks.lookup index = some check

theorem Quiet.extends {before after : IceAgent} (hquiet : Quiet before after) :
    Extends before after :=
  ⟨hquiet.config, hquiet.candidates, fun _ _ hcheck ↦ hquiet.checks ▸ hcheck⟩

theorem Settled.extends {before after : IceAgent} {index : ℕ} {id : TransactionId}
    {valid : Option ℕ} (hsettled : Settled before after index id valid) : Extends before after :=
  ⟨hsettled.config, hsettled.candidates, fun _ _ hcheck ↦
    lookup_of_erase (hsettled.checks ▸ hcheck)⟩

theorem extends_onDatagram (env : Environment) (agent : IceAgent)
    (localAddress source : SocketAddr) (datagram : Bytes) :
    Extends agent (agent.onDatagram env localAddress source datagram).1 := by
  cases handled_onDatagram env agent localAddress source datagram with
  | quiet _ hquiet => exact hquiet.extends
  | ended _ _ _ hsettled => exact hsettled.extends
  | answered _ _ _ _ _ hsettled => exact hsettled.extends

/-! ### Polls -/

section Polls

variable (env : Environment) (agent : IceAgent)

/-- A visit of an outstanding check leaves everything, polls it under its id, or fails its pair. -/
theorem pollCheck_cases (now index : ℕ) :
    (agent.pollCheck env now index).1 = agent ∨
      ∃ check polled, agent.checks.lookup index = some check ∧
        polled.transaction.id = check.transaction.id ∧
        ((agent.pollCheck env now index).1 =
            { agent with checks := agent.checks.insert index polled } ∨
          (agent.pollCheck env now index).1 =
            (failPair { agent with checks := agent.checks.insert index polled } index
              check.transaction.id).1) := by
  unfold pollCheck
  split
  · exact Or.inl rfl
  rename_i check hcheck
  have hid := (poll_frame check.transaction now).1
  refine Or.inr
    ⟨check, { check with transaction := (check.transaction.poll now).2 }, hcheck, hid, ?_⟩
  dsimp only
  split
  · exact Or.inl rfl
  · exact Or.inr rfl
  · exact Or.inl rfl

/-- A poll that starts no check writes nothing that matters. -/
theorem quiet_of_nothing {before after : IceAgent} (hconfig : after.config = before.config)
    (hchecklist : after.checklist = before.checklist) (hchecks : after.checks = before.checks)
    (htransactions : after.transactions = before.transactions) : Quiet before after :=
  quiet_of_eq (by rw [hconfig]) hchecks htransactions (by rw [hchecklist]) fun _ ↦ by
    rw [hchecklist]

end Polls

end IceAgent

end SiphonRtp.Ice
