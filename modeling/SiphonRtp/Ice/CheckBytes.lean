import SiphonRtp.Ice.Effects

/-!
# The octets of the checks an agent transmits

Only `poll` transmits checks: the first request of a transaction when it starts a check, and the
retransmissions of those outstanding. A retransmission is built anew from the pair, the id and the
flag of the check, and from the role the agent holds by then (`buildCheckAction`).

`transmissions` lists what the polls of a run transmit, with the role before each poll. Along a run
the checks are recorded as they start, and every transmission is the datagram of a record in the
role of its moment (`records_transmissions`).
-/

set_option autoImplicit false

namespace SiphonRtp.Ice.IceAgent

open Machine Stun

/-! ### What a run transmits -/

/-- The datagrams among some actions. -/
def datagrams (actions : List AgentAction) : List Bytes :=
  actions.filterMap fun
    | .send _ _ datagram => some datagram
    | _ => none

/-- The checks a call transmits. -/
def checksSent (env : Environment) (agent : IceAgent) : Event → List Bytes
  | .poll poll => datagrams (agent.poll env poll).2
  | _ => []

/-- The checks a run transmits, each with the role of the agent at that poll. -/
def transmissions (env : Environment) : IceAgent → List Event → List (Bool × Bytes)
  | _, [] => []
  | agent, event :: rest =>
    (agent.checksSent env event).map (fun datagram ↦ (agent.config.controlling, datagram)) ++
      transmissions env (agent.step env event).2 rest

/-- The transaction id of a datagram. -/
def transactionIdOf (datagram : Bytes) : TransactionId :=
  Vector.ofFn fun position : Fin 12 ↦ octet datagram (8 + position)

/-- The ids drawn for a call. -/
def Event.draws : Event → List TransactionId
  | .poll input => input.draws
  | _ => []

/-! ### The record of the checks -/

/-- A check as it was started. -/
structure CheckRecord where
  id : TransactionId
  /-- The priority of the pair's local candidate. -/
  priority : UInt32
  nominating : Bool
  /-- The role the check was started in. -/
  controlling : Bool

/-- The datagram of a check, built in some role. -/
def CheckRecord.datagram (env : Environment) (config : AgentConfig) (record : CheckRecord)
    (controlling : Bool) : Bytes :=
  bindingRequestIce env.toDigests record.id config.username config.remoteCredentials.pwd
    record.priority { config with controlling := controlling }.role record.nominating

/-- Every outstanding check is on record, with its pair's local priority. -/
def Covers (log : List CheckRecord) (agent : IceAgent) : Prop :=
  ∀ index id nominating, Outstanding agent index id nominating →
    ∃ pair, agent.checklist.candidates[index]? = some pair ∧
      ∃ record ∈ log, record.id = id ∧ record.nominating = nominating ∧
        record.priority = pair.1.priority

@[simp] theorem datagrams_nil : datagrams [] = [] := rfl

section Record

variable (env : Environment) {log : List CheckRecord} {agent : IceAgent}

theorem mem_datagrams {actions : List AgentAction} {datagram : Bytes} :
    datagram ∈ datagrams actions ↔ ∃ source target, .send source target datagram ∈ actions := by
  unfold datagrams
  rw [List.mem_filterMap]
  constructor
  · rintro ⟨action, haction, heq⟩
    cases action with
    | send source target sent =>
      cases heq
      exact ⟨source, target, haction⟩
    | stateChanged state => exact nomatch heq
    | selected localAddress remoteAddress => exact nomatch heq
  · rintro ⟨source, target, haction⟩
    exact ⟨_, haction, rfl⟩

/-- A call that starts no check keeps the record. -/
theorem Covers.of_extends (hcovers : Covers log agent) {after : IceAgent}
    (hextends : Extends agent after) : Covers log after := by
  rintro index id nominating ⟨check, hcheck, hid, hnominating⟩
  obtain ⟨pair, hpair, hrecord⟩ :=
    hcovers index id nominating ⟨check, hextends.checks index check hcheck, hid, hnominating⟩
  exact ⟨pair, Checklist.candidates_at hextends.candidates hpair, hrecord⟩

theorem Covers.of_visits (hcovers : Covers log agent) {visited : IceAgent × List AgentAction}
    (hvisits : Visits env agent visited) : Covers log visited.1 := by
  intro index id nominating houtstanding
  rw [hvisits.candidates]
  exact hcovers index id nominating (hvisits.outstanding index id nominating houtstanding)

/-- What a visit transmits is on record. -/
theorem Covers.datagram_of_visits (hcovers : Covers log agent)
    {visited : IceAgent × List AgentAction} (hvisits : Visits env agent visited) {datagram : Bytes}
    (hsent : datagram ∈ datagrams visited.2) :
    ∃ record ∈ log, datagram = record.datagram env agent.config agent.config.controlling := by
  obtain ⟨source, target, haction⟩ := mem_datagrams.mp hsent
  rcases hvisits.sent _ haction with
    ⟨state, hstate⟩ | ⟨index, id, nominating, pair, hout, hpair, heq⟩
  · exact nomatch hstate
  · obtain ⟨found, hfound, record, hrecord, rfl, rfl, hpriority⟩ :=
      hcovers index id nominating hout
    obtain rfl := Option.some.inj (hfound.symm.trans hpair)
    obtain ⟨_, _, rfl⟩ := AgentAction.send.inj heq
    refine ⟨record, hrecord, ?_⟩
    rw [CheckRecord.datagram, hpriority]

/-- What one call adds to the record: nothing, or the check it starts and transmits. -/
structure Records (env : Environment) (log new : List CheckRecord) (agent : IceAgent)
    (event : Event) : Prop where
  covers : Covers (log ++ new) (agent.step env event).2
  short : new.length ≤ 1
  started : ∀ record ∈ new, record.id ∈ event.draws ∧
    record.controlling = agent.config.controlling ∧
    (record.nominating = true → record.controlling = true) ∧
    record.datagram env agent.config agent.config.controlling ∈ agent.checksSent env event
  sent : ∀ datagram ∈ agent.checksSent env event, ∃ record ∈ log ++ new,
    datagram = record.datagram env agent.config agent.config.controlling

/-- A call records at most one id, and one that it drew, so the ids stay apart from later ones. -/
theorem Records.nodup {new : List CheckRecord} {event : Event}
    (hrecords : Records env log new agent event) {later : List TransactionId}
    (hids : (log.map CheckRecord.id ++ (event.draws ++ later)).Nodup) :
    ((log ++ new).map CheckRecord.id ++ later).Nodup := by
  rw [List.map_append, List.append_assoc]
  refine hids.sublist (List.Sublist.append_left (List.Sublist.append_right ?_ _) _)
  match new, hrecords.short, hrecords.started with
  | [], _, _ => exact List.nil_sublist _
  | [record], _, hstarted =>
    exact List.singleton_sublist.mpr (hstarted record (List.mem_singleton_self record)).1

theorem Records.of_extends (hcovers : Covers log agent) {event : Event}
    (hextends : Extends agent (agent.step env event).2)
    (hsilent : agent.checksSent env event = []) :
    Records env log [] agent event where
  covers := by
    rw [List.append_nil]
    exact hcovers.of_extends hextends
  short := Nat.zero_le 1
  started := fun _ hrecord ↦ nomatch hrecord
  sent := fun datagram hsent ↦ by
    rw [hsilent] at hsent
    exact nomatch hsent

theorem Covers.mono {more : List CheckRecord} (hcovers : Covers log agent) :
    Covers (log ++ more) agent := by
  intro index id nominating houtstanding
  obtain ⟨pair, hpair, record, hrecord, hsame⟩ := hcovers index id nominating houtstanding
  exact ⟨pair, hpair, record, List.mem_append_left more hrecord, hsame⟩

theorem records_poll (hcovers : Covers log agent) (poll : Poll) :
    ∃ new, Records env log new agent (.poll poll) := by
  rcases poll_cases env agent poll with hnothing | ⟨visited, started, hvisits, hstarts, hpoll⟩
  · refine ⟨[], Records.of_extends env hcovers ?_ ?_⟩
    · show Extends agent (agent.poll env poll).1
      rw [hnothing]
      exact (Quiet.refl agent).extends
    · show datagrams (agent.poll env poll).2 = []
      rw [hnothing]
      rfl
  have hvisited := hcovers.of_visits env hvisits
  have hafter : (agent.step env (.poll poll)).2 = started.1 := by
    show (agent.poll env poll).1 = _
    rw [hpoll]
  have hsent : agent.checksSent env (.poll poll) = datagrams visited.2 ++ datagrams started.2 := by
    show datagrams (agent.poll env poll).2 = _
    rw [hpoll]
    exact List.filterMap_append
  cases hstarts with
  | nothing hconfig hchecklist hchecks _ hsilent =>
    refine ⟨[], ?_, Nat.zero_le 1, (fun _ hrecord ↦ nomatch hrecord), ?_⟩
    · rw [List.append_nil, hafter]
      rintro index id nominating ⟨check, hcheck, hsame⟩
      rw [hchecks] at hcheck
      rw [hchecklist]
      exact hvisited index id nominating ⟨check, hcheck, hsame⟩
    · intro datagram hdatagram
      rw [hsent, hsilent, datagrams_nil, List.append_nil] at hdatagram
      rw [List.append_nil]
      exact hcovers.datagram_of_visits env hvisits hdatagram
  | check index id nominating pair hnominates hdrawn _ hfound hconfig hchecklist hchecks _
      haction =>
    rw [hvisits.config] at hnominates haction
    let record : CheckRecord := ⟨id, pair.1.priority, nominating, agent.config.controlling⟩
    have hstarted : datagrams started.2 =
        [record.datagram env agent.config agent.config.controlling] := by
      rw [haction]
      rfl
    refine ⟨[record], ?_, le_rfl, ?_, ?_⟩
    · rw [hafter]
      rintro other id' nominating' ⟨check, hcheck, hid, hflag⟩
      rw [hchecks] at hcheck
      rw [hchecklist, Checklist.candidates_setState]
      by_cases hother : other = index
      · -- the check that was just started
        subst hother
        obtain rfl := Option.some.inj ((AList.lookup_insert _).symm.trans hcheck)
        exact ⟨pair, hfound, record, List.mem_append_right log (List.mem_singleton_self record),
          hid, hflag, rfl⟩
      · rw [AList.lookup_insert_ne hother] at hcheck
        exact hvisited.mono other id' nominating' ⟨check, hcheck, hid, hflag⟩
    · intro other hother
      rw [List.mem_singleton.mp hother, hsent, hstarted]
      exact ⟨hdrawn, rfl, hnominates, List.mem_append_right _ (List.mem_singleton_self _)⟩
    · intro datagram hdatagram
      rw [hsent, hstarted] at hdatagram
      rcases List.mem_append.mp hdatagram with hdatagram | hdatagram
      · obtain ⟨old, hold, heq⟩ := hcovers.datagram_of_visits env hvisits hdatagram
        exact ⟨old, List.mem_append_left _ hold, heq⟩
      · exact ⟨record, List.mem_append_right log (List.mem_singleton_self record),
          List.mem_singleton.mp hdatagram⟩

theorem records_step (hcovers : Covers log agent) (event : Event) :
    ∃ new, Records env log new agent event := by
  cases event with
  | poll poll => exact records_poll env hcovers poll
  | datagram localAddress source datagram =>
    exact ⟨[],
      .of_extends env hcovers (extends_onDatagram env agent localAddress source datagram) rfl⟩
  | addRemoteCandidate remote =>
    exact ⟨[], .of_extends env hcovers (quiet_addRemoteCandidate agent remote).extends rfl⟩

/-! ### Whole runs -/

/-- The calls of an agent keep its configuration up to the role. -/
theorem config_step (env : Environment) (agent : IceAgent) (event : Event) :
    (agent.step env event).2.config =
      { agent.config with controlling := (agent.step env event).2.config.controlling } := by
  cases event with
  | poll poll =>
    show (agent.poll env poll).1.config = { agent.config with
      controlling := (agent.poll env poll).1.config.controlling }
    rw [config_poll]
  | datagram localAddress source datagram =>
    exact (extends_onDatagram env agent localAddress source datagram).config
  | addRemoteCandidate remote => exact (quiet_addRemoteCandidate agent remote).extends.config

/-- What a run adds to the record: the checks it starts, each with its first transmission, under
distinct ids; and every transmission is the datagram of a record in the role of its moment. -/
theorem records_transmissions (env : Environment) (config : AgentConfig) (events : List Event) :
    ∀ (agent : IceAgent) (log : List CheckRecord), Covers log agent →
      agent.config = { config with controlling := agent.config.controlling } →
      (log.map CheckRecord.id ++ events.flatMap Event.draws).Nodup →
      ∃ new, ((log ++ new).map CheckRecord.id).Nodup ∧
        (∀ record ∈ new, record.id ∈ events.flatMap Event.draws) ∧
        (∀ record ∈ new, (record.nominating = true → record.controlling = true) ∧
          (record.controlling, record.datagram env config record.controlling) ∈
            transmissions env agent events) ∧
        ∀ sent ∈ transmissions env agent events, ∃ record ∈ log ++ new,
          sent.2 = record.datagram env config sent.1 := by
  -- by induction on the calls, the record growing by what each of them starts
  induction events with
  | nil =>
    intro agent log _ _ hids
    refine ⟨[], ?_, ?_, ?_, ?_⟩
    · rw [List.append_nil]
      exact hids.of_append_left
    · exact fun _ hrecord ↦ nomatch hrecord
    · exact fun _ hrecord ↦ nomatch hrecord
    · exact fun _ hsent ↦ nomatch hsent
  | cons event rest ih =>
    intro agent log hcovers hconfig hids
    obtain ⟨new, hrecords⟩ := records_step env hcovers event
    have hdatagram : ∀ (record : CheckRecord) controlling,
        record.datagram env agent.config controlling =
          record.datagram env config controlling := by
      intro record controlling
      rw [hconfig]
      rfl
    have hconfig' : (agent.step env event).2.config = { config with
        controlling := (agent.step env event).2.config.controlling } := by
      rw [config_step, hconfig]
    obtain ⟨later, hnodup, hdrawn, hfirst, hlater⟩ :=
      ih (agent.step env event).2 (log ++ new) hrecords.covers hconfig' (hrecords.nodup env hids)
    refine ⟨new ++ later, ?_, ?_, ?_, ?_⟩
    · rw [← List.append_assoc]
      exact hnodup
    · intro record hrecord
      rcases List.mem_append.mp hrecord with hnew | hlate
      · exact List.mem_append_left _ (hrecords.started record hnew).1
      · exact List.mem_append_right _ (hdrawn record hlate)
    · intro record hrecord
      rcases List.mem_append.mp hrecord with hnew | hlate
      · obtain ⟨_, hrole, hnominates, hsent⟩ := hrecords.started record hnew
        refine ⟨hnominates, List.mem_append_left _ (List.mem_map.mpr ⟨_, hsent, ?_⟩)⟩
        rw [hrole, hdatagram]
      · obtain ⟨hnominates, hsent⟩ := hfirst record hlate
        exact ⟨hnominates, List.mem_append_right _ hsent⟩
    · intro sent hsent
      rcases List.mem_append.mp hsent with hnow | hlate
      · obtain ⟨datagram, hmem, rfl⟩ := List.mem_map.mp hnow
        obtain ⟨record, hrecord, heq⟩ := hrecords.sent datagram hmem
        refine ⟨record, ?_, heq.trans (hdatagram record _)⟩
        rw [← List.append_assoc]
        exact List.mem_append_left later hrecord
      · obtain ⟨record, hrecord, heq⟩ := hlater sent hlate
        refine ⟨record, ?_, heq⟩
        rw [← List.append_assoc]
        exact hrecord

end Record

/-! ### Checks over time -/

section Octets

variable {env : Environment} {config : AgentConfig} {record : CheckRecord}

theorem transactionIdOf_datagram (controlling : Bool) :
    transactionIdOf (record.datagram env config controlling) = record.id :=
  transactionId_bindingRequestIce _ _ _ _ _ _ _

/-- The octets of a check tell its role. -/
theorem controlling_of_datagram {other : CheckRecord} {first second : Bool}
    (heq : record.datagram env config first = other.datagram env config second) :
    first = second := by
  have hrole := congrArg (readU16 · 28) heq
  simp only [CheckRecord.datagram, readU16_bindingRequestIce_role] at hrole
  cases first <;> cases second <;>
    simp [AgentConfig.role, IceRole.attr, attrIceControlling, attrIceControlled] at hrole ⊢

/-- A check read as one with USE-CANDIDATE is a nominating one, and is read in its own role. -/
theorem nominating_of_datagram {controlling : Bool} {id : TransactionId} {username key : Bytes}
    {priority : UInt32} {role : IceRole}
    (heq : record.datagram env config controlling =
      bindingRequestIce env.toDigests id username key priority role true) :
    record.nominating = true ∧
      (controlling = true → ∃ tieBreaker, role = .controlling tieBreaker) := by
  constructor
  · have hflag := congrArg (readU16 · 40) heq
    simp only [CheckRecord.datagram, readU16_bindingRequestIce_flag] at hflag
    by_contra hplain
    simp [hplain, attrUsername, attrUseCandidate] at hflag
  · rintro rfl
    have hrole := congrArg (readU16 · 28) heq
    simp only [CheckRecord.datagram, readU16_bindingRequestIce_role] at hrole
    cases role with
    | controlling tieBreaker => exact ⟨tieBreaker, rfl⟩
    | controlled tieBreaker =>
      simp [AgentConfig.role, IceRole.attr, attrIceControlling, attrIceControlled] at hrole

end Octets

/-- The checks of a run are well formed over time, every check with USE-CANDIDATE announcing the
controlling role and all transmissions of one transaction equal to the last octet, exactly if any
two transmissions of one transaction find the agent in the same role.
Assumes: the ids drawn are pairwise distinct. -/
theorem checks_well_formed_iff_role_kept (env : Environment) (config : AgentConfig) (now : ℕ)
    (events : List Event) (hids : (events.flatMap Event.draws).Nodup) :
    let sent := transmissions env (IceAgent.new config now) events
    ((∀ check ∈ sent, ∀ id username key priority role,
        check.2 = bindingRequestIce env.toDigests id username key priority role true →
          ∃ tieBreaker, role = .controlling tieBreaker) ∧
      ∀ first ∈ sent, ∀ second ∈ sent,
        transactionIdOf first.2 = transactionIdOf second.2 → first.2 = second.2) ↔
      ∀ first ∈ sent, ∀ second ∈ sent,
        transactionIdOf first.2 = transactionIdOf second.2 → first.1 = second.1 := by
  intro sent
  have hcovers : Covers [] (IceAgent.new config now) := by
    rintro index id nominating ⟨check, hcheck, _⟩
    exact nomatch hcheck
  obtain ⟨log, hnodup, _, hfirst, hsent⟩ := records_transmissions env config events
    (IceAgent.new config now) [] hcovers rfl hids
  constructor
  · rintro ⟨_, hidentical⟩ first hmem second hmem' hsame
    obtain ⟨record, _, hrecord⟩ := hsent first hmem
    obtain ⟨other, _, hother⟩ := hsent second hmem'
    have heq := hidentical first hmem second hmem' hsame
    rw [hrecord, hother] at heq
    exact controlling_of_datagram heq
  · intro hkept
    -- every transmission is in the role its check was started in
    have hrole : ∀ check ∈ sent, ∃ record ∈ log, check.1 = record.controlling ∧
        check.2 = record.datagram env config record.controlling := by
      intro check hcheck
      obtain ⟨record, hrecord, heq⟩ := hsent check hcheck
      have hsame : transactionIdOf check.2 =
          transactionIdOf (record.datagram env config record.controlling) := by
        rw [heq, transactionIdOf_datagram, transactionIdOf_datagram]
      have hcontrolling : check.1 = record.controlling :=
        hkept check hcheck _ (hfirst record hrecord).2 hsame
      exact ⟨record, hrecord, hcontrolling, hcontrolling ▸ heq⟩
    constructor
    · intro check hcheck id username key priority role heq
      obtain ⟨record, hrecord, _, hdatagram⟩ := hrole check hcheck
      obtain ⟨hnominating, hread⟩ := nominating_of_datagram (hdatagram.symm.trans heq)
      exact hread ((hfirst record hrecord).1 hnominating)
    · intro first hmem second hmem' hsame
      obtain ⟨record, hrecord, _, hdatagram⟩ := hrole first hmem
      obtain ⟨other, hother, _, hdatagram'⟩ := hrole second hmem'
      rw [hdatagram, hdatagram', transactionIdOf_datagram, transactionIdOf_datagram] at hsame
      obtain rfl := List.inj_on_of_nodup_map hnodup hrecord hother hsame
      rw [hdatagram, hdatagram']

/-- A check of the sample agent succeeds, the nominating one that follows goes out, and a check of
the peer comes in before it is retransmitted. -/
def nominatingRun (incoming : IceRole) : List Event :=
  [.poll ⟨0, [], none, some (sampleId 1)⟩, sampleSuccess (sampleId 1),
    .poll ⟨1, [], some (sampleId 2), none⟩, sampleRequest incoming, .poll ⟨501, [0], none, none⟩]

/-- The nominating check of the sample agent, in some role. -/
def nominatingCheck (role : IceRole) : Bytes :=
  bindingRequestIce sampleEnvironment.toDigests (sampleId 2) [0x52, 0x3A, 0x4C] [0x72] 0x7EFFFFFF
    role true

/-- The peer is controlled: the nominating check goes out twice, and what goes out is well formed.
-/
theorem nominating_check_repeated :
    ((nominatingRun (.controlled 5)).flatMap Event.draws).Nodup ∧
      ∀ first ∈ transmissions sampleEnvironment (.new (sampleConfig true 1) 0)
        (nominatingRun (.controlled 5)),
      ∀ second ∈ transmissions sampleEnvironment (.new (sampleConfig true 1) 0)
        (nominatingRun (.controlled 5)),
        transactionIdOf first.2 = transactionIdOf second.2 → first.2 = second.2 := by
  have hids : ((nominatingRun (.controlled 5)).flatMap Event.draws).Nodup := by decide
  exact ⟨hids, ((checks_well_formed_iff_role_kept sampleEnvironment (sampleConfig true 1) 0
    (nominatingRun (.controlled 5)) hids).mpr (by decide)).2⟩

/-- The peer claims the controlling role with the larger tie-breaker: the nominating check is
retransmitted under the same id with ICE-CONTROLLED, and still with USE-CANDIDATE. -/
theorem role_switch_rewrites_check :
    ((nominatingRun (.controlling 5)).flatMap Event.draws).Nodup ∧
      (true, nominatingCheck (.controlling 1)) ∈ transmissions sampleEnvironment
        (.new (sampleConfig true 1) 0) (nominatingRun (.controlling 5)) ∧
      (false, nominatingCheck (.controlled 1)) ∈ transmissions sampleEnvironment
        (.new (sampleConfig true 1) 0) (nominatingRun (.controlling 5)) ∧
      transactionIdOf (nominatingCheck (.controlling 1)) =
        transactionIdOf (nominatingCheck (.controlled 1)) ∧
      nominatingCheck (.controlling 1) ≠ nominatingCheck (.controlled 1) := by
  decide

end SiphonRtp.Ice.IceAgent
