import SiphonRtp.Ice.Effects
import SiphonRtp.Ice.Trickle

/-!
# The integrity of the checklist

No two pairs have the same addresses, the two candidates of a pair are of one component and one
address family, and every pair is priced for the role of the agent. Most handlers write states and
nominations alone (`Same`). Pairs enter when the list is formed, with a trickled candidate, with a
check from an unknown source, and with a success that maps us to an unknown address. The last two
take the component and the family as they come: the remote candidate of a check is of component 1
whatever the local one is, and nothing compares the families.
-/

set_option autoImplicit false

namespace SiphonRtp.Ice

open Machine Datapath Stun

/-- Both agents price a pair alike, each in its role. -/
theorem pairPriority_mirror (localPriority remotePriority : UInt32) (controlling : Bool) :
    pairPriority remotePriority localPriority (!controlling) =
      pairPriority localPriority remotePriority controlling := by
  cases controlling <;> rfl

namespace Checklist

/-- The candidates of the pairs, with their priorities. -/
def priced (checklist : Checklist) : List ((Candidate × Candidate) × ℕ) :=
  checklist.map fun pair ↦ (pair.candidates, pair.priority)

theorem priced_setState (checklist : Checklist) (index : ℕ) (state : PairState) :
    (checklist.setState index state).priced = checklist.priced :=
  map_setState (fun _ _ ↦ rfl) checklist index state

theorem priced_nominate (checklist : Checklist) (index : ℕ) :
    (checklist.nominate index).priced = checklist.priced := by
  refine map_modify_of_forall ?_ checklist index
  exact fun _ ↦ rfl

theorem priced_startFirst (started : List (Bytes × Bytes)) (checklist : Checklist)
    (order : List ℕ) : (startFirst started checklist order).priced = checklist.priced :=
  map_startFirst (fun _ _ ↦ rfl) checklist started order

end Checklist

namespace IceAgent

/-! ### Handlers that keep the pairs -/

/-- The configuration, and the pairs with their priorities, are the same. -/
structure Same (before after : IceAgent) : Prop where
  config : after.config = before.config
  priced : after.checklist.priced = before.checklist.priced

theorem Same.refl (agent : IceAgent) : Same agent agent := ⟨rfl, rfl⟩

theorem Same.trans {first second third : IceAgent} (hfirst : Same first second)
    (hsecond : Same second third) : Same first third :=
  ⟨hsecond.config.trans hfirst.config, hsecond.priced.trans hfirst.priced⟩

section Handlers

variable (env : Environment) (agent : IceAgent) (index : ℕ)

theorem same_recomputeState : Same agent agent.recomputeState.1 := by
  rw [recomputeState_eq]
  exact ⟨rfl, rfl⟩

theorem same_failPair (id : TransactionId) : Same agent (agent.failPair index id).1 := by
  rw [failPair_eq]
  exact ⟨rfl, Checklist.priced_setState _ _ _⟩

theorem same_select : Same agent (agent.select index).1 := by
  unfold select setState
  split_ifs
  · exact ⟨rfl, rfl⟩
  · exact ⟨rfl, rfl⟩
  · exact ⟨rfl, rfl⟩

theorem same_triggerCheck : Same agent (agent.triggerCheck index) := by
  have htrigger : Same agent (agent.trigger index) := ⟨rfl, Checklist.priced_setState _ _ _⟩
  unfold triggerCheck
  split
  · exact htrigger
  · exact htrigger
  · exact htrigger
  · exact .refl agent

theorem same_honourNomination (message : StunMessage) :
    Same agent (agent.honourNomination message index).1 := by
  have hnominate (nominated : ℕ) : Same agent { agent with
      checklist := (agent.checklist.nominate nominated).nominate index } :=
    ⟨rfl, (Checklist.priced_nominate _ _).trans (Checklist.priced_nominate _ _)⟩
  unfold honourNomination
  dsimp only
  split_ifs
  · exact (hnominate _).trans (same_select _ _)
  · exact hnominate _
  · exact .refl agent

theorem same_inherit (valid : ℕ) : Same agent (agent.inherit index valid) := by
  unfold inherit
  split_ifs
  · exact .refl agent
  · exact ⟨rfl, Checklist.priced_nominate _ _⟩
  · exact ⟨rfl, rfl⟩

theorem same_succeed (valid : ℕ) : Same agent (agent.succeed valid) :=
  ⟨rfl, Checklist.map_succeed (fun _ _ ↦ rfl) agent valid⟩

theorem same_conclude (valid : ℕ) (nominating : Bool) :
    Same agent (agent.conclude valid nominating).1 := by
  unfold conclude
  split_ifs
  · have hnominate : Same agent { agent with checklist := agent.checklist.nominate valid } :=
      ⟨rfl, Checklist.priced_nominate _ _⟩
    exact hnominate.trans (same_select _ _)
  · exact same_recomputeState agent

theorem same_pollChecks (now : ℕ) (order : List ℕ) :
    Same agent (agent.pollChecks env now order).1 := by
  induction order generalizing agent with
  | nil => exact .refl agent
  | cons index rest ih =>
    have hfirst : Same agent (agent.pollCheck env now index).1 := by
      rcases pollCheck_cases env agent now index with hsame | ⟨_, polled, -, -, hkept | hfailed⟩
      · rw [hsame]
        exact .refl agent
      · rw [hkept]
        exact ⟨rfl, rfl⟩
      · rw [hfailed]
        have hkept : Same agent { agent with checks := agent.checks.insert index polled } :=
          ⟨rfl, rfl⟩
        exact hkept.trans (same_failPair _ index _)
    exact hfirst.trans (ih _)

theorem same_poll (poll : Poll) : Same agent (agent.poll env poll).1 := by
  unfold IceAgent.poll
  split_ifs
  · exact .refl agent
  · refine (same_pollChecks env agent poll.now poll.order).trans ?_
    cases starts_pollStart env (agent.pollChecks env poll.now poll.order).1 poll with
    | nothing hconfig hchecklist => exact ⟨hconfig, congrArg Checklist.priced hchecklist⟩
    | check index _ _ _ _ _ _ _ hconfig hchecklist =>
      exact ⟨hconfig, (congrArg Checklist.priced hchecklist).trans
        (Checklist.priced_setState _ _ _)⟩

end Handlers

/-! ### The invariant -/

/-- The checklist is intact. The components and families match if all that came in did. -/
structure Intact (matching : Prop) (agent : IceAgent) : Prop where
  unique : agent.checklist.addresses.Nodup
  matched : matching → ∀ pair ∈ agent.checklist.candidates,
    pair.1.component = pair.2.component ∧ isIpv4 pair.1.address = isIpv4 pair.2.address
  priced : ∀ entry ∈ agent.checklist.priced, entry.2 =
    pairPriority entry.1.1.priority entry.1.2.priority agent.config.controlling

section Intact

variable {matching : Prop} {env : Environment} {agent after : IceAgent}

theorem candidates_eq_priced (checklist : Checklist) :
    checklist.candidates = checklist.priced.map (·.1) := by
  unfold Checklist.candidates Checklist.priced
  rw [List.map_map]
  rfl

theorem Intact.of_same (hintact : Intact matching agent) (hsame : Same agent after) :
    Intact matching after := by
  have hcandidates : after.checklist.candidates = agent.checklist.candidates := by
    rw [candidates_eq_priced, hsame.priced, ← candidates_eq_priced]
  refine ⟨?_, ?_, ?_⟩
  · rw [Checklist.addresses_eq, hcandidates, ← Checklist.addresses_eq]
    exact hintact.unique
  · rw [hcandidates]
    exact hintact.matched
  · rw [hsame.priced, hsame.config]
    exact hintact.priced

theorem addresses_reprice (checklist : Checklist) (controlling : Bool) :
    Checklist.addresses (checklist.map (CandidatePair.reprice controlling)) =
      checklist.addresses := by
  rw [Checklist.addresses_eq, Checklist.candidates_reprice, ← Checklist.addresses_eq]

theorem Intact.switchRole (hintact : Intact matching agent) (controlling : Bool) :
    Intact matching (agent.switchRole controlling) := by
  unfold IceAgent.switchRole
  split_ifs
  · exact hintact
  · refine ⟨?_, ?_, fun entry hentry ↦ ?_⟩
    · rw [addresses_reprice]
      exact hintact.unique
    · rw [Checklist.candidates_reprice]
      exact hintact.matched
    · obtain ⟨pair, hpair, rfl⟩ := List.mem_map.mp hentry
      obtain ⟨old, -, rfl⟩ := List.mem_map.mp hpair
      rfl

/-- A pair with new addresses joins the list. -/
theorem Intact.push (hintact : Intact matching agent) {pair : CandidatePair}
    (hconfig : after.config = agent.config) (hafter : after.checklist = agent.checklist ++ [pair])
    (hnew : agent.checklist.find pair.localCandidate.address pair.remoteCandidate.address = none)
    (hpriority : pair.priority = pairPriority pair.localCandidate.priority
      pair.remoteCandidate.priority agent.config.controlling)
    (hmatched : matching → pair.localCandidate.component = pair.remoteCandidate.component ∧
      isIpv4 pair.localCandidate.address = isIpv4 pair.remoteCandidate.address) :
    Intact matching after := by
  refine ⟨?_, fun hmatching found hfound ↦ ?_, fun entry hentry ↦ ?_⟩
  · rw [hafter, Checklist.addresses, List.map_append]
    refine List.nodup_append.mpr ⟨hintact.unique, List.nodup_singleton _, ?_⟩
    rintro first hfirst second hsecond rfl
    rw [List.mem_singleton.mp hsecond] at hfirst
    have hsome := (Checklist.find_isSome_iff _ _ _).mpr hfirst
    rw [hnew] at hsome
    cases hsome
  · rw [hafter, Checklist.candidates, List.map_append] at hfound
    rcases List.mem_append.mp hfound with hold | hlast
    · exact hintact.matched hmatching found hold
    · rw [List.mem_singleton.mp hlast]
      exact hmatched hmatching
  · rw [hafter, Checklist.priced, List.map_append] at hentry
    rw [hconfig]
    rcases List.mem_append.mp hentry with hold | hlast
    · exact hintact.priced entry hold
    · rw [List.mem_singleton.mp hlast]
      exact hpriority

/-! ### A list that is formed -/

theorem nodup_addresses_retainFirst (seen : List (SocketAddr × SocketAddr))
    (checklist : Checklist) :
    (Checklist.retainFirst seen checklist).addresses.Nodup ∧
      ∀ pair ∈ (Checklist.retainFirst seen checklist).addresses, pair ∉ seen := by
  induction checklist generalizing seen with
  | nil => exact ⟨List.nodup_nil, fun _ h ↦ absurd h List.not_mem_nil⟩
  | cons first rest ih =>
    unfold Checklist.retainFirst
    split_ifs with hseen
    · exact ih seen
    · obtain ⟨hnodup, hfresh⟩ :=
        ih (seen ++ [(first.localCandidate.address, first.remoteCandidate.address)])
      refine ⟨List.nodup_cons.mpr ⟨fun hmem ↦ ?_, hnodup⟩, fun pair hpair ↦ ?_⟩
      · exact hfresh _ hmem (by simp)
      · rcases List.mem_cons.mp hpair with rfl | hrest
        · exact hseen
        · exact fun hold ↦ hfresh pair hrest (List.mem_append_left _ hold)

theorem mem_priced_form {localCandidates remoteCandidates : List Candidate} {controlling : Bool}
    {entry : (Candidate × Candidate) × ℕ}
    (hentry : entry ∈ (Checklist.form localCandidates remoteCandidates controlling).priced) :
    ∃ localCandidate ∈ localCandidates, ∃ remoteCandidate,
      compatible localCandidate remoteCandidate = true ∧
        entry = (({ localCandidate with address := localCandidate.base }, remoteCandidate),
          pairPriority localCandidate.priority remoteCandidate.priority controlling) := by
  rw [Checklist.form, Checklist.freezeInitial, Checklist.priced_startFirst] at hentry
  obtain ⟨pair, hpair, rfl⟩ := List.mem_map.mp hentry
  have hpruned := Checklist.retainFirst_subset _ _ _ ((List.mem_insertionSort _).mp hpair)
  obtain ⟨original, horiginal, rfl⟩ := List.mem_map.mp ((List.mem_insertionSort _).mp hpruned)
  obtain ⟨localCandidate, hlocal, hinner⟩ := List.mem_flatMap.mp horiginal
  obtain ⟨remoteCandidate, hremote, rfl⟩ := List.mem_map.mp hinner
  refine ⟨localCandidate, hlocal, remoteCandidate, (List.mem_filter.mp hremote).2, ?_⟩
  obtain ⟨_, _, _, _, _, kind, related⟩ := localCandidate
  cases kind <;> cases related <;> rfl

/-- The base of a server-reflexive candidate is of its family. -/
def BasesMatch (config : AgentConfig) : Prop :=
  ∀ candidate ∈ config.localCandidates, isIpv4 candidate.base = isIpv4 candidate.address

theorem compatible_iff (localCandidate remoteCandidate : Candidate) :
    compatible localCandidate remoteCandidate = true ↔
      (localCandidate.component = remoteCandidate.component ∧
        isIpv4 localCandidate.address = isIpv4 remoteCandidate.address) ∧
      localCandidate.transport.isSupported = true ∧
      remoteCandidate.transport.isSupported = true := by
  unfold compatible
  rw [Bool.and_eq_true, Bool.and_eq_true, Bool.and_eq_true, beq_iff_eq, beq_iff_eq, and_assoc]

theorem intact_new {config : AgentConfig} (hbases : matching → BasesMatch config) (now : ℕ) :
    Intact matching (.new config now) := by
  refine ⟨?_, fun hmatching pair hpair ↦ ?_, fun entry hentry ↦ ?_⟩
  · have hfrozen : (IceAgent.new config now).checklist.addresses =
        (Checklist.sort (Checklist.prune (Checklist.pairings config.localCandidates
          config.remoteCandidates config.controlling))).addresses := by
      rw [Checklist.addresses_eq, Checklist.addresses_eq, IceAgent.new, Checklist.form,
        Checklist.freezeInitial, Checklist.candidates_startFirst]
    rw [hfrozen]
    exact ((List.perm_insertionSort _ _).map _).nodup_iff.mpr (nodup_addresses_retainFirst _ _).1
  · rw [candidates_eq_priced] at hpair
    obtain ⟨entry, hentry, rfl⟩ := List.mem_map.mp hpair
    obtain ⟨localCandidate, hlocal, remoteCandidate, hcompatible, rfl⟩ := mem_priced_form hentry
    obtain ⟨⟨hcomponent, hfamily⟩, -⟩ := (compatible_iff _ _).mp hcompatible
    exact ⟨hcomponent, (hbases hmatching localCandidate hlocal).trans hfamily⟩
  · obtain ⟨localCandidate, hlocal, remoteCandidate, hcompatible, rfl⟩ := mem_priced_form hentry
    rfl

/-! ### Calls -/

theorem intact_addRemoteCandidate (hintact : Intact matching agent) (remote : Candidate) :
    Intact matching (agent.addRemoteCandidate remote) := by
  refine addRemoteCandidate_induction hintact (fun agent localCandidate hintact ↦ ?_)
    fun _ _ h ↦ h.of_same ⟨rfl, rfl⟩
  unfold addPair
  split
  · exact hintact
  next hskip =>
    obtain ⟨hcompatible, hfind⟩ := not_or.mp hskip
    refine hintact.push rfl rfl (Option.not_isSome_iff_eq_none.mp hfind) rfl fun _ ↦ ?_
    exact ((compatible_iff _ _).mp ((Bool.not_eq_false _).mp hcompatible)).1

/-- A check from an unknown source comes in on a candidate of component 1 and of its family. -/
def SourceMatches (agent : IceAgent) (localAddress source : SocketAddr) : Prop :=
  agent.checklist.find localAddress source = none →
    ∀ candidate, agent.localCandidateFor localAddress = some candidate →
      candidate.component = 1 ∧ isIpv4 candidate.address = isIpv4 source

theorem find_switchRole (controlling : Bool) {localAddress source : SocketAddr}
    (hfind : (agent.switchRole controlling).checklist.find localAddress source = none) :
    agent.checklist.find localAddress source = none := by
  rw [← Option.not_isSome_iff_eq_none, Checklist.find_isSome_iff] at hfind ⊢
  unfold switchRole at hfind
  split_ifs at hfind
  · exact hfind
  · rwa [addresses_reprice] at hfind

theorem localCandidateFor_switchRole (controlling : Bool) (address : SocketAddr) :
    (agent.switchRole controlling).localCandidateFor address = agent.localCandidateFor address := by
  unfold switchRole
  split_ifs
  · rfl
  · unfold localCandidateFor
    rw [List.find?_map, Option.map_map]
    rfl

theorem address_of_localCandidateFor {address : SocketAddr} {candidate : Candidate}
    (hcandidate : agent.localCandidateFor address = some candidate) :
    candidate.address = address := by
  rcases Option.or_eq_some_iff.mp hcandidate with hown | ⟨-, hpaired⟩
  · have hfound := List.find?_some hown
    exact beq_iff_eq.mp hfound
  · obtain ⟨pair, hpair, rfl⟩ := Option.map_eq_some_iff.mp hpaired
    have hfound := List.find?_some hpair
    exact beq_iff_eq.mp hfound

theorem intact_onRequest (hintact : Intact matching agent) {localAddress source : SocketAddr}
    {datagram : Bytes} {message : StunMessage}
    (hsource : matching → addressedTo message agent.config.localCredentials.ufrag = true →
      verifyMessageIntegrity env.toDigests datagram agent.config.localCredentials.pwd = true →
        SourceMatches agent localAddress source) :
    Intact matching (agent.onRequest env localAddress source datagram message).1 := by
  unfold onRequest
  split_ifs with hrefused
  · exact hintact
  simp only [not_or, Bool.not_eq_false] at hrefused
  split
  · exact hintact
  next switched hresolved =>
    obtain ⟨controlling, rfl⟩ := switchRole_of_resolveRole agent hresolved
    have hswitched := hintact.switchRole controlling
    split
    · exact hswitched
    next paired index hpaired =>
      have hpair : Intact matching paired := by
        unfold pairForRequest at hpaired
        split at hpaired
        · cases hpaired
          exact hswitched
        next hfind =>
          obtain ⟨candidate, hcandidate, heq⟩ := Option.map_eq_some_iff.mp hpaired
          cases heq
          refine hswitched.push rfl rfl ?_ rfl fun hmatching ↦ ?_
          · rw [CandidatePair.new, address_of_localCandidateFor hcandidate]
            exact hfind
          · rw [localCandidateFor_switchRole] at hcandidate
            exact hsource hmatching hrefused.1 hrefused.2 (find_switchRole controlling hfind)
              candidate hcandidate
      exact (hpair.of_same (same_honourNomination paired index message)).of_same
        (same_triggerCheck _ index)

theorem intact_onSuccess (hintact : Intact matching agent) {source : SocketAddr} {datagram : Bytes}
    {message : StunMessage}
    (hmapped : matching → (agent.transactions message.transactionId).isSome = true →
      verifyMessageIntegrity env.toDigests datagram agent.config.remoteCredentials.pwd = true →
        ∀ mapped, message.xorMappedAddress = some mapped → isIpv4 mapped = isIpv4 source) :
    Intact matching (agent.onSuccess env source datagram message).1 := by
  unfold onSuccess
  split
  · exact hintact
  next index hindex =>
    split_ifs with hrefused
    · exact hintact
    split
    · exact hintact
    next pair hpair =>
      split_ifs with haddress
      · exact hintact.of_same (same_failPair agent index _)
      split
      · exact hintact
      next check _ =>
        have hdropped : Intact matching (agent.dropCheck index message.transactionId) :=
          hintact.of_same ⟨rfl, rfl⟩
        have hvalid : Intact matching ((agent.dropCheck index message.transactionId).validPair env
            index pair message).1 := by
          unfold validPair
          split
          next mapped hsome =>
            split_ifs
            · unfold discoverLocalReflexive
              split
              · exact hdropped
              next hfind =>
                refine hdropped.push rfl rfl hfind rfl fun hmatching ↦ ?_
                have hmember : pair.candidates ∈ agent.checklist.candidates :=
                  List.mem_map_of_mem (List.mem_of_getElem? hpair)
                refine ⟨(hintact.matched hmatching _ hmember).1, ?_⟩
                rw [CandidatePair.new, not_not.mp haddress]
                exact hmapped hmatching (by rw [hindex]; rfl) ((Bool.not_eq_false _).mp hrefused)
                  mapped hsome
            · exact hdropped
          · exact hdropped
        exact ((hvalid.of_same (same_inherit _ _ _)).of_same (same_succeed _ _)).of_same
          (same_conclude _ _ _)

theorem intact_onErrorResponse (hintact : Intact matching agent) (datagram : Bytes)
    (message : StunMessage) : Intact matching (agent.onErrorResponse env datagram message).1 := by
  unfold onErrorResponse
  split
  · exact hintact
  next index _ =>
    split_ifs
    · exact hintact
    · have hdropped : Intact matching (agent.dropCheck index message.transactionId) :=
        hintact.of_same ⟨rfl, rfl⟩
      refine (hdropped.switchRole _).of_same ⟨rfl, ?_⟩
      exact Checklist.priced_setState _ _ _
    · exact hintact.of_same (same_failPair agent index _)

/-- What comes in from the peer matches what is there: an authenticated request its candidate, and
an authenticated answer to a check its source. -/
def Matches (env : Environment) (agent : IceAgent) : Event → Prop
  | .datagram localAddress source datagram => ∀ message, parse datagram = .ok message →
    (message.isBindingRequest = true →
      addressedTo message agent.config.localCredentials.ufrag = true →
      verifyMessageIntegrity env.toDigests datagram agent.config.localCredentials.pwd = true →
        SourceMatches agent localAddress source) ∧
    (message.messageType = bindingSuccess →
      (agent.transactions message.transactionId).isSome = true →
      verifyMessageIntegrity env.toDigests datagram agent.config.remoteCredentials.pwd = true →
        ∀ mapped, message.xorMappedAddress = some mapped → isIpv4 mapped = isIpv4 source)
  | _ => True

theorem intact_step (hintact : Intact matching agent) {event : Event}
    (hmatches : matching → Matches env agent event) :
    Intact matching (agent.step env event).2 := by
  cases event with
  | poll poll => exact hintact.of_same (same_poll env agent poll)
  | addRemoteCandidate remote => exact intact_addRemoteCandidate hintact remote
  | datagram localAddress source datagram =>
    change Intact matching (agent.onDatagram env localAddress source datagram).1
    unfold onDatagram
    split
    · exact hintact
    next message hparsed =>
      split_ifs with hrequest hsuccess
      · exact intact_onRequest hintact fun h ↦ (hmatches h message hparsed).1 hrequest
      · exact intact_onSuccess hintact fun h ↦ (hmatches h message hparsed).2 hsuccess
      · exact intact_onErrorResponse hintact _ _

end Intact

/-! ### Runs -/

section Run

variable (env : Environment) {config : AgentConfig} (now : ℕ) {events : List Event}

theorem intact_final {matching : Prop} (hbases : matching → BasesMatch config)
    (hmatches : matching → ∀ k event, events[k]? = some event →
      Matches env (final (step env) (.new config now) (events.take k)) event) :
    Intact matching (final (step env) (.new config now) events) := by
  have htake := final_take_induction (fun _ agent ↦ Intact matching agent)
    (intact_new hbases now) (fun k event hevent hintact ↦ intact_step hintact
      fun h ↦ hmatches h k event hevent) (le_refl events.length)
  rwa [List.take_length] at htake

/-- The checklist stays intact. Assumes: server-reflexive candidates have bases of their family, and
at every datagram of the run what comes in from the peer matches what is there (`Matches`). In every
state that a run reaches, the pairs have distinct addresses, matching components and families, and
the priority of the current role; and a peer in the other role prices a mirrored pair alike,
whatever its own run was. -/
theorem checklist_intact (hbases : BasesMatch config)
    (hmatches : ∀ k event, events[k]? = some event →
      Matches env (final (step env) (.new config now) (events.take k)) event) :
    let agent := final (step env) (.new config now) events
    Intact True agent ∧ ∀ (theirConfig : AgentConfig) (start : ℕ) (theirEvents : List Event),
      let peer := final (step env) (.new theirConfig start) theirEvents
      peer.config.controlling = !agent.config.controlling →
        ∀ ours ∈ agent.checklist, ∀ theirs ∈ peer.checklist,
          theirs.localCandidate.priority = ours.remoteCandidate.priority →
            theirs.remoteCandidate.priority = ours.localCandidate.priority →
              theirs.priority = ours.priority := by
  intro agent
  have hintact : Intact True agent := intact_final env now (fun _ ↦ hbases) fun _ ↦ hmatches
  refine ⟨hintact, fun theirConfig start theirEvents ↦ ?_⟩
  intro peer hrole ours hours theirs htheirs hlocal hremote
  have hpeer : Intact False peer := intact_final env start False.elim False.elim
  have hprice := hintact.priced _ (List.mem_map_of_mem hours)
  have htheirPrice := hpeer.priced _ (List.mem_map_of_mem htheirs)
  dsimp only [CandidatePair.candidates] at hprice htheirPrice
  rw [hprice, htheirPrice, hrole, hlocal, hremote]
  exact pairPriority_mirror _ _ _

end Run

/-- A check from an address that was not signalled. -/
def strangerCheck : Event :=
  .datagram (.v4 1 4000) (.v4 3 6000)
    (bindingRequestIce sampleEnvironment.toDigests (sampleId 9) [0x4C, 0x3A, 0x52] [0x6C] 1
      (.controlling 1) false)

/-- It adds a pair to the checklist of an agent with one component. -/
theorem checklist_intact_stranger :
    let agent := final (step sampleEnvironment) (.new (sampleConfig false 7) 0) [strangerCheck]
    agent.checklist.length = 2 ∧ Intact True agent := by
  have hbases : BasesMatch (sampleConfig false 7) := by
    intro candidate hcandidate
    rw [List.mem_singleton.mp hcandidate]
    rfl
  have hrequest : (parse (bindingRequestIce sampleEnvironment.toDigests (sampleId 9)
      [0x4C, 0x3A, 0x52] [0x6C] 1 (.controlling 1) false)).toOption.any
        (·.messageType ≠ bindingSuccess) = true := by
    decide +kernel
  have hmatches : ∀ k event, [strangerCheck][k]? = some event → Matches sampleEnvironment
      (final (step sampleEnvironment) (.new (sampleConfig false 7) 0) ([strangerCheck].take k))
        event := by
    intro k event hevent
    obtain ⟨hk, rfl⟩ := List.getElem?_eq_some_iff.mp hevent
    obtain rfl : k = 0 := Nat.lt_one_iff.mp hk
    refine fun message hparsed ↦ ⟨fun _ _ _ _ candidate hcandidate ↦ ?_, fun hsuccess ↦ ?_⟩
    · have hlocal : IceAgent.localCandidateFor (.new (sampleConfig false 7) 0) (.v4 1 4000) =
          some (hostCandidate (.v4 1 4000)) := by
        decide +kernel
      rw [Option.some.inj (hcandidate.symm.trans hlocal)]
      exact ⟨rfl, rfl⟩
    · rw [hparsed] at hrequest
      exact absurd hsuccess (of_decide_eq_true hrequest)
  refine ⟨by decide +kernel, ?_⟩
  exact (checklist_intact sampleEnvironment 0 hbases hmatches).1

/-- On a candidate of component 2 it adds a pair of two components. -/
theorem stranger_pairs_components :
    let config : AgentConfig := { sampleConfig false 7 with
      localCandidates := [.new [0x31] 2 (.v4 1 4000) .host 65535]
      remoteCandidates := [.new [0x31] 2 (.v4 2 5000) .host 65535] }
    (final (step sampleEnvironment) (.new config 0) [strangerCheck]).checklist.map
        (fun pair ↦ (pair.localCandidate.component, pair.remoteCandidate.component)) =
      [(2, 2), (2, 1)] := by
  decide +kernel

end IceAgent

end SiphonRtp.Ice
