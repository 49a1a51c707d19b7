import SiphonRtp.Ice.Checklist
import Mathlib.Data.List.AList

/-!
# The full ICE agent

`siphon-rtp-ice/src/agent.rs`. The agent is a pure state machine: `poll` says what to transmit at a
given millisecond, `onDatagram` takes a datagram from the wire, `addRemoteCandidate` a trickled
candidate. `IceAgent.step` puts the three together, and a run is a list of them.

What the source draws from its environment is an input of the step: the transaction ids of a poll,
each of which may fail to be drawn, and the order in which the outstanding checks are visited, which
is that of a hash map. An index is looked up in the checklist with `getElem?`; where the source
would panic on one that is out of range the model does nothing, and no agent holds such an index.
-/

set_option autoImplicit false

namespace SiphonRtp.Ice

open Machine Datapath Stun

/-! ### The state of an agent -/

/-- What the agent computes with code of other crates: the digests of STUN, and the foundation of a
peer-reflexive candidate by its base. -/
structure Environment extends Digests where
  reflexiveFoundation : IpAddr → Bytes

/-- One side's short-term credentials. -/
structure Credentials where
  ufrag : Bytes
  pwd : Bytes
deriving DecidableEq

/-- A coarse view of how the agent is doing. -/
inductive IceState
  | running
  | connected
  | completed
  | failed
deriving DecidableEq

/-- What the agent asks its caller to do. -/
inductive AgentAction
  | send («from» «to» : SocketAddr) (datagram : Bytes)
  | stateChanged (state : IceState)
  | selected (localAddress remoteAddress : SocketAddr)
deriving DecidableEq

structure AgentConfig where
  localCredentials : Credentials
  remoteCredentials : Credentials
  localCandidates : List Candidate
  remoteCandidates : List Candidate
  controlling : Bool
  tieBreaker : UInt64
  pacingMs : ℕ
  rtoMs : ℕ
deriving DecidableEq

/-- An outstanding connectivity check. -/
structure OutstandingCheck where
  transaction : Transaction
  /-- The check carries USE-CANDIDATE. -/
  nominating : Bool
deriving DecidableEq

structure IceAgent where
  config : AgentConfig
  checklist : Checklist
  state : IceState
  /-- The outstanding check of a pair, by its index. -/
  checks : AList fun _ : ℕ ↦ OutstandingCheck
  /-- The pair a transaction was started for. -/
  transactions : TransactionId → Option ℕ
  /-- Pairs to check ahead of the ordinary list. -/
  triggered : List ℕ
  nextCheckMs : ℕ
  /-- The valid pair that the check of a pair produced, if another one. -/
  generatedValid : ℕ → Option ℕ
  selected : Option ℕ
  nominationSent : Bool

/-- Our role and tie-breaker. -/
def AgentConfig.role (config : AgentConfig) : IceRole :=
  if config.controlling then .controlling config.tieBreaker else .controlled config.tieBreaker

/-- The USERNAME of our checks. -/
def AgentConfig.username (config : AgentConfig) : Bytes :=
  config.remoteCredentials.ufrag ++ 0x3A :: config.localCredentials.ufrag

namespace IceAgent

/-- `IceAgent::new`. -/
def new (config : AgentConfig) (now : ℕ) : IceAgent where
  config := config
  checklist := .form config.localCandidates config.remoteCandidates config.controlling
  state :=
    if (Checklist.form config.localCandidates config.remoteCandidates config.controlling).isEmpty
    then .failed else .running
  checks := ∅
  transactions := fun _ ↦ none
  triggered := []
  nextCheckMs := now
  generatedValid := fun _ ↦ none
  selected := none
  nominationSent := false

/-! ### The state the caller sees -/

/-- `set_state`. -/
def setState (agent : IceAgent) (state : IceState) : IceAgent × List AgentAction :=
  if agent.state = state then (agent, [])
  else ({ agent with state := state }, [.stateChanged state])

/-- `recompute_state`. -/
def recomputeState (agent : IceAgent) : IceAgent × List AgentAction :=
  if agent.selected.isSome then (agent, [])
  else if agent.checklist.valid ≠ [] then agent.setState .connected
  else if agent.checklist.isExhausted ∧ agent.checks.keys = [] then agent.setState .failed
  else (agent, [])

/-- `select`. -/
def select (agent : IceAgent) (index : ℕ) : IceAgent × List AgentAction :=
  if agent.selected = some index then (agent, [])
  else
    let completed := setState { agent with selected := some index } .completed
    (completed.1,
      (agent.checklist[index]?.map fun pair ↦ AgentAction.selected pair.localCandidate.address
        pair.remoteCandidate.address).toList ++ completed.2)

/-- `switch_role`. -/
def switchRole (agent : IceAgent) (controlling : Bool) : IceAgent :=
  if agent.config.controlling = controlling then agent
  else
    { agent with
      config := { agent.config with controlling := controlling }
      checklist := agent.checklist.map (CandidatePair.reprice controlling) }

/-- A pair waits, ahead of the ordinary list. -/
def trigger (agent : IceAgent) (index : ℕ) : IceAgent :=
  { agent with
    checklist := agent.checklist.setState index .waiting
    triggered :=
      if index ∈ agent.triggered then agent.triggered else agent.triggered ++ [index] }

/-- A check and its transaction are over. -/
def dropCheck (agent : IceAgent) (index : ℕ) (id : TransactionId) : IceAgent :=
  { agent with
    checks := agent.checks.erase index
    transactions := fun other ↦ if other = id then none else agent.transactions other }

/-- A check is over and its pair has failed. -/
def failPair (agent : IceAgent) (index : ℕ) (id : TransactionId) : IceAgent × List AgentAction :=
  recomputeState { agent.dropCheck index id with
    checklist := agent.checklist.setState index .failed }

/-! ### Polling -/

/-- `build_check_action`. -/
def buildCheckAction (env : Environment) (agent : IceAgent) (index : ℕ) (id : TransactionId)
    (nominating : Bool) : Option AgentAction :=
  agent.checklist[index]?.map fun pair ↦
    .send pair.localCandidate.address pair.remoteCandidate.address
      (bindingRequestIce env.toDigests id agent.config.username agent.config.remoteCredentials.pwd
        pair.localCandidate.priority agent.config.role nominating)

/-- `start_check`, with the id that was drawn. -/
def startCheck (env : Environment) (agent : IceAgent) (index now : ℕ) (nominating : Bool)
    (drawn : Option TransactionId) : Option (IceAgent × AgentAction) :=
  drawn.bind fun id ↦
    (agent.buildCheckAction env index id nominating).map fun action ↦
      ({ agent with
          checks := agent.checks.insert index
            ⟨.start id (.new (max agent.config.rtoMs 1)) now, nominating⟩
          transactions := fun other ↦
            if other = id then some index else agent.transactions other
          checklist := agent.checklist.setState index .inProgress }, action)

/-- One outstanding check at a poll. -/
def pollCheck (env : Environment) (now : ℕ) (agent : IceAgent) (index : ℕ) :
    IceAgent × List AgentAction :=
  match agent.checks.lookup index with
  | none => (agent, [])
  | some check =>
    let polled := check.transaction.poll now
    let agent :=
      { agent with checks := agent.checks.insert index { check with transaction := polled.2 } }
    match polled.1 with
    | .retransmit _ =>
      (agent, (agent.buildCheckAction env index check.transaction.id check.nominating).toList)
    | .failed => agent.failPair index check.transaction.id
    | .wait => (agent, [])

/-- The outstanding checks, in the order they are visited. -/
def pollChecks (env : Environment) (now : ℕ) (agent : IceAgent) :
    List ℕ → IceAgent × List AgentAction
  | [] => (agent, [])
  | index :: rest =>
    let first := agent.pollCheck env now index
    let others := pollChecks env now first.1 rest
    (others.1, first.2 ++ others.2)

/-- `take_triggered`: the first pair of the queue that has no check, and the queue after it. -/
def takeTriggered (agent : IceAgent) : List ℕ → Option ℕ × List ℕ
  | [] => (none, [])
  | index :: rest =>
    if index ∈ agent.checks then agent.takeTriggered rest
    else if index < agent.checklist.length then (some index, rest)
    else agent.takeTriggered rest

/-- What the environment supplies to a poll. -/
structure Poll where
  now : ℕ
  /-- The order in which the outstanding checks are visited. -/
  order : List ℕ
  nominationId : Option TransactionId
  checkId : Option TransactionId

/-- The pair that is to be nominated: the best valid one, by a controlling agent that has sent no
nomination. -/
def nominee (agent : IceAgent) : Option ℕ :=
  if agent.config.controlling = true ∧ agent.nominationSent = false ∧ agent.selected = none then
    agent.checklist.valid.head?
  else none

/-- Ordinary and triggered checks, paced. -/
def pollNext (env : Environment) (agent : IceAgent) (poll : Poll) :
    IceAgent × List AgentAction :=
  if poll.now < agent.nextCheckMs then (agent, [])
  else
    let taken := agent.takeTriggered agent.triggered
    let agent := { agent with triggered := taken.2 }
    match taken.1.or agent.checklist.nextWaiting with
    | none => (agent, [])
    | some index =>
      match agent.startCheck env index poll.now false poll.checkId with
      | none => (agent, [])
      | some (agent, action) =>
        ({ agent with nextCheckMs := min (poll.now + max agent.config.pacingMs 1) u64Max },
          [action])

/-- Nominate if there is something to nominate, and check otherwise. -/
def pollStart (env : Environment) (agent : IceAgent) (poll : Poll) :
    IceAgent × List AgentAction :=
  match agent.nominee with
  | none => agent.pollNext env poll
  | some best =>
    let agent := { agent with nominationSent := true }
    match agent.startCheck env best poll.now true poll.nominationId with
    | some (agent, action) => (agent, [action])
    | none => agent.pollNext env poll

/-- `IceAgent::poll`. -/
def poll (env : Environment) (agent : IceAgent) (poll : Poll) : IceAgent × List AgentAction :=
  if agent.state = .failed ∨ agent.state = .completed then (agent, [])
  else
    let checked := agent.pollChecks env poll.now poll.order
    let started := checked.1.pollStart env poll
    (started.1, checked.2 ++ started.2)

/-! ### Trickled candidates -/

/-- Pair a remote candidate with one of ours. -/
def addPair (remote : Candidate) (agent : IceAgent) (localCandidate : Candidate) : IceAgent :=
  if compatible localCandidate remote = false ∨
      (agent.checklist.find localCandidate.address remote.address).isSome then agent
  else
    { agent with
      checklist := agent.checklist ++
        [{ CandidatePair.new localCandidate remote agent.config.controlling with
            state := .waiting }]
      triggered :=
        if agent.checklist.length ∈ agent.triggered then agent.triggered
        else agent.triggered ++ [agent.checklist.length] }

/-- `add_remote_candidate`. -/
def addRemoteCandidate (agent : IceAgent) (remote : Candidate) : IceAgent :=
  let added := agent.config.localCandidates.foldl (addPair remote) agent
  if agent.checklist.length < added.checklist.length ∧ added.state = .failed then
    { added with state := .running }
  else added

/-! ### Datagrams -/

/-- `local_candidate_for`. -/
def localCandidateFor (agent : IceAgent) (address : SocketAddr) : Option Candidate :=
  (agent.config.localCandidates.find? fun candidate ↦ candidate.address == address).or
    ((agent.checklist.find? fun pair ↦ pair.localCandidate.address == address).map
      CandidatePair.localCandidate)

/-- The role conflict of a request: none if the request is refused, and the agent in the role it
goes on with otherwise. -/
def resolveRole (agent : IceAgent) (message : StunMessage) : Option IceAgent :=
  match message.iceControlling with
  | some theirs =>
    if agent.config.controlling then
      if theirs ≤ agent.config.tieBreaker then none else some (agent.switchRole false)
    else some agent
  | none =>
    match message.iceControlled with
    | some theirs =>
      if agent.config.controlling then some agent
      else if theirs ≤ agent.config.tieBreaker then none else some (agent.switchRole true)
    | none => some agent

/-- A peer-reflexive remote candidate, as a check reveals it. -/
def reflexiveRemote (env : Environment) (source : SocketAddr) (message : StunMessage) : Candidate :=
  { Candidate.new (env.reflexiveFoundation source.ip) 1 source .peerReflexive 0 with
    priority := message.priority.getD 0 }

/-- The pair a request came in on, a new one if its source is unknown. -/
def pairForRequest (env : Environment) (agent : IceAgent) (localAddress source : SocketAddr)
    (message : StunMessage) : Option (IceAgent × ℕ) :=
  match agent.checklist.find localAddress source with
  | some index => some (agent, index)
  | none =>
    (agent.localCandidateFor localAddress).map fun localCandidate ↦
      ({ agent with
          checklist := agent.checklist ++
            [{ CandidatePair.new localCandidate (reflexiveRemote env source message)
                agent.config.controlling with state := .waiting }] },
        agent.checklist.length)

/-- A controlled agent honours USE-CANDIDATE on the valid pair of the pair it came in on. -/
def honourNomination (agent : IceAgent) (message : StunMessage) (index : ℕ) :
    IceAgent × List AgentAction :=
  if message.hasUseCandidate = true ∧ agent.config.controlling = false then
    let nominated := (agent.generatedValid index).getD index
    let agent :=
      { agent with checklist := (agent.checklist.nominate nominated).nominate index }
    if agent.checklist.stateAt nominated = some .succeeded then agent.select nominated
    else (agent, [])
  else (agent, [])

/-- A triggered check, unless one is outstanding or the pair has succeeded. -/
def triggerCheck (agent : IceAgent) (index : ℕ) : IceAgent :=
  match agent.checklist.stateAt index with
  | some .frozen | some .waiting | some .failed => agent.trigger index
  | _ => agent

/-- The error code of a role conflict. -/
def errorRoleConflict : UInt16 := 487

/-- The octets of `Role Conflict`. -/
def roleConflictReason : Bytes :=
  [0x52, 0x6F, 0x6C, 0x65, 0x20, 0x43, 0x6F, 0x6E, 0x66, 0x6C, 0x69, 0x63, 0x74]

/-- `on_request`. -/
def onRequest (env : Environment) (agent : IceAgent) (localAddress source : SocketAddr)
    (datagram : Bytes) (message : StunMessage) : IceAgent × List AgentAction :=
  if addressedTo message agent.config.localCredentials.ufrag = false ∨
      verifyMessageIntegrity env.toDigests datagram agent.config.localCredentials.pwd = false then
    (agent, [])
  else
    match agent.resolveRole message with
    | none =>
      (agent, [.send localAddress source (bindingErrorResponse env.toDigests message.transactionId
        errorRoleConflict roleConflictReason (some agent.config.localCredentials.pwd))])
    | some agent =>
      match agent.pairForRequest env localAddress source message with
      | none => (agent, [])
      | some (agent, index) =>
        let nominated := agent.honourNomination message index
        (nominated.1.triggerCheck index,
          .send localAddress source (bindingSuccessResponse env.toDigests message.transactionId
            source (some agent.config.localCredentials.pwd)) :: nominated.2)

/-- `discover_local_reflexive`, for a checked pair. -/
def discoverLocalReflexive (env : Environment) (agent : IceAgent) (checked : CandidatePair)
    (mapped : SocketAddr) : IceAgent × ℕ :=
  match agent.checklist.find mapped checked.remoteCandidate.address with
  | some existing => (agent, existing)
  | none =>
    let reflexive : Candidate :=
      { Candidate.new (env.reflexiveFoundation checked.localCandidate.address.ip)
          checked.component mapped .peerReflexive 65535 with
        related := some checked.localCandidate.address }
    ({ agent with
        checklist := agent.checklist ++
          [CandidatePair.new reflexive checked.remoteCandidate agent.config.controlling] },
      agent.checklist.length)

/-- The valid pair a success produces. -/
def validPair (env : Environment) (agent : IceAgent) (index : ℕ) (checked : CandidatePair)
    (message : StunMessage) : IceAgent × ℕ :=
  match message.xorMappedAddress with
  | some mapped =>
    if (agent.localCandidateFor mapped).isNone then agent.discoverLocalReflexive env checked mapped
    else (agent, index)
  | none => (agent, index)

/-- The valid pair is recorded for the checked one and inherits its nomination. -/
def inherit (agent : IceAgent) (index valid : ℕ) : IceAgent :=
  if valid = index then agent
  else
    { agent with
      generatedValid := fun other ↦ if other = index then some valid else agent.generatedValid other
      checklist :=
        if agent.checklist[index]?.any CandidatePair.nominated then
          agent.checklist.nominate valid
        else agent.checklist }

/-- The pair has succeeded, and its foundation is unfrozen. -/
def succeed (agent : IceAgent) (valid : ℕ) : IceAgent :=
  let checklist := agent.checklist.setState valid .succeeded
  { agent with
    checklist := (checklist[valid]?.map CandidatePair.foundation).elim checklist
      checklist.unfreezeFoundation }

/-- A nominated pair that has succeeded is selected. -/
def conclude (agent : IceAgent) (valid : ℕ) (nominating : Bool) : IceAgent × List AgentAction :=
  if nominating = true ∨ agent.checklist[valid]?.any CandidatePair.nominated then
    select { agent with checklist := agent.checklist.nominate valid } valid
  else agent.recomputeState

/-- `on_success`. -/
def onSuccess (env : Environment) (agent : IceAgent) (source : SocketAddr) (datagram : Bytes)
    (message : StunMessage) : IceAgent × List AgentAction :=
  match agent.transactions message.transactionId with
  | none => (agent, [])
  | some index =>
    if verifyMessageIntegrity env.toDigests datagram agent.config.remoteCredentials.pwd = false then
      (agent, [])
    else
      match agent.checklist[index]? with
      | none => (agent, [])
      | some pair =>
        if pair.remoteCandidate.address ≠ source then agent.failPair index message.transactionId
        else
          match agent.checks.lookup index with
          | none => (agent, [])
          | some check =>
            let agent := agent.dropCheck index message.transactionId
            let discovered := agent.validPair env index pair message
            ((discovered.1.inherit index discovered.2).succeed discovered.2).conclude discovered.2
              check.nominating

/-- `on_error_response`. -/
def onErrorResponse (env : Environment) (agent : IceAgent) (datagram : Bytes)
    (message : StunMessage) : IceAgent × List AgentAction :=
  match agent.transactions message.transactionId with
  | none => (agent, [])
  | some index =>
    if verifyMessageIntegrity env.toDigests datagram agent.config.remoteCredentials.pwd = false then
      (agent, [])
    else if message.errorCode = some errorRoleConflict then
      ({ ((agent.dropCheck index message.transactionId).switchRole
            (!agent.config.controlling)).trigger index with nominationSent := false }, [])
    else agent.failPair index message.transactionId

/-- `IceAgent::on_datagram`. -/
def onDatagram (env : Environment) (agent : IceAgent) (localAddress source : SocketAddr)
    (datagram : Bytes) : IceAgent × List AgentAction :=
  match parse datagram with
  | .error _ => (agent, [])
  | .ok message =>
    if message.isBindingRequest then agent.onRequest env localAddress source datagram message
    else if message.messageType = bindingSuccess then agent.onSuccess env source datagram message
    else agent.onErrorResponse env datagram message

/-! ### Runs -/

/-- One call of the agent. -/
inductive Event
  | poll (poll : Poll)
  | datagram (localAddress source : SocketAddr) (datagram : Bytes)
  | addRemoteCandidate (remote : Candidate)

/-- What a call does. -/
def step (env : Environment) (agent : IceAgent) : Event → List AgentAction × IceAgent
  | .poll poll => ((agent.poll env poll).2, (agent.poll env poll).1)
  | .datagram localAddress source datagram =>
    ((agent.onDatagram env localAddress source datagram).2,
      (agent.onDatagram env localAddress source datagram).1)
  | .addRemoteCandidate remote => ([], agent.addRemoteCandidate remote)

/-! ### A sample agent -/

/-- Digests that are all zero. -/
def sampleEnvironment : Environment where
  hmacSha1 _ _ := Vector.replicate 20 0
  crc32 _ := 0
  reflexiveFoundation _ := []

/-- A host candidate. -/
def hostCandidate (address : SocketAddr) : Candidate := .new [0x31] 1 address .host 65535

/-- One local and one remote candidate, with the default timers. -/
def sampleConfig (controlling : Bool) (tieBreaker : UInt64) : AgentConfig where
  localCredentials := ⟨[0x4C], [0x6C]⟩
  remoteCredentials := ⟨[0x52], [0x72]⟩
  localCandidates := [hostCandidate (.v4 1 4000)]
  remoteCandidates := [hostCandidate (.v4 2 5000)]
  controlling := controlling
  tieBreaker := tieBreaker
  pacingMs := 50
  rtoMs := 500

/-- A transaction id. -/
def sampleId (octet : UInt8) : TransactionId := Vector.replicate 12 octet

/-- The peer's answer to a check. -/
def sampleSuccess (id : TransactionId) : Event :=
  .datagram (.v4 1 4000) (.v4 2 5000)
    (bindingSuccessResponse sampleEnvironment.toDigests id (.v4 1 4000) (some [0x72]))

/-- A check of the peer. -/
def sampleRequest (role : IceRole) : Event :=
  .datagram (.v4 1 4000) (.v4 2 5000)
    (bindingRequestIce sampleEnvironment.toDigests (sampleId 9) [0x4C, 0x3A, 0x52] [0x6C] 1 role
      false)

end IceAgent

end SiphonRtp.Ice
