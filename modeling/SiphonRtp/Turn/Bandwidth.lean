import SiphonRtp.Turn.Changes

/-!
# The bytes relayed through an allocation

The cap on an allocation is tested against the counter `bytes_relayed`, which is raised once per
payload. Toward a peer it is raised after the datapath has taken the payload. Toward the client it
is raised whatever the client's transport did: `ClientTransport::send` reports nothing. `Metered`
runs the manager beside the bytes that really went through, and `Charged` is what one message does
to the counter.

The counter is a `u64` and its sums wrap. `relayed_le_cap` and `relayed_is_counted` ask of a run
that no payload takes it past the largest one (`Metered.Fits`).
-/

set_option autoImplicit false

namespace SiphonRtp.Turn

open Machine Datapath

/-- What an effect carries to a peer. -/
def Effect.sentBytes : Effect → ℕ
  | .send _ _ data => data.length
  | _ => 0

namespace AllocationManager

section Relaying

variable (setup : Setup) (fiveTuple : FiveTuple)

/-- The payload bytes of a message that go through the allocation of a 5-tuple. `reached` says
whether the client's transport passes on what it is handed. -/
def relayedBytes (manager : AllocationManager) (message : Message) (effects : List Effect)
    (reached : Bool) : ℕ :=
  match message with
  | .client tuple _ _ => if tuple = fiveTuple then (effects.map Effect.sentBytes).sum else 0
  | .relayInbound endpoint _ data =>
    if manager.relayIndex.lookup endpoint = some fiveTuple ∧ effects ≠ [] ∧ reached = true then
      data.length
    else 0
  | .tick => 0

/-- The manager, with the bytes relayed through the allocation since it was made. -/
structure Metered where
  manager : AllocationManager
  relayed : ℕ

/-- The bytes a message brings when the client's transport passes everything on. -/
def Metered.offered (metered : Metered) (input : Surroundings × Message) : ℕ :=
  relayedBytes fiveTuple metered.manager input.2 (handle setup metered.manager input).1 true

def Metered.step (metered : Metered) (input : (Surroundings × Message) × Bool) :
    List Effect × Metered :=
  let handled := handle setup metered.manager input.1
  (handled.1, {
    manager := handled.2
    relayed :=
      if (metered.manager.allocations.lookup fiveTuple).isNone then 0
      else metered.relayed +
        relayedBytes fiveTuple metered.manager input.1.2 handled.1 input.2 })

theorem Brings.withinBudget {manager : AllocationManager} {input : Surroundings × Message}
    {allocation : Allocation} {data : Bytes} {effect : Effect}
    (hbrings : Brings setup fiveTuple manager input allocation data effect) :
    withinBudget setup allocation data.length = true := by
  cases hbrings with
  | indication _ _ _ hbudget => exact hbudget
  | channelData _ _ _ _ hbudget => exact hbudget
  | inbound _ _ _ _ hbudget => exact hbudget

/-- The payload of a message does not take the counter past the largest `u64`. -/
def Metered.Fits (metered : Metered) (input : Surroundings × Message) : Prop :=
  ∀ allocation data effect, metered.manager.allocations.lookup fiveTuple = some allocation →
    Brings setup fiveTuple metered.manager input allocation data effect →
      allocation.bytesRelayed + data.length < 2 ^ 64

/-! ### One message -/

/-- What a message that brings so many octets does to the counter. -/
def Charged (manager : AllocationManager) (input : Surroundings × Message) (amount : ℕ)
    (before after : Option Allocation) : Prop :=
  ∀ next, after = some next →
    before = none ∧ next.bytesRelayed = 0 ∨
      ∃ allocation, before = some allocation ∧
        (amount = 0 ∧ next.bytesRelayed = allocation.bytesRelayed ∨
          ∃ data effect, Brings setup fiveTuple manager input allocation data effect ∧
            data.length = amount ∧ next = addBytes amount allocation)

variable {setup fiveTuple}

section Charged

variable {manager : AllocationManager} {input : Surroundings × Message}

theorem charged_self (before : Option Allocation) :
    Charged setup fiveTuple manager input 0 before before :=
  fun next hnext ↦ .inr ⟨next, hnext, .inl ⟨rfl, rfl⟩⟩

/-- A payload that is relayed is charged to the allocation it goes through. -/
theorem charged_countBytes {after : AllocationManager} {other : FiveTuple}
    {allocation : Allocation} {data : Bytes} {effect : Effect}
    (hafter : after.allocations = manager.allocations)
    (hsome : manager.allocations.lookup other = some allocation)
    (hbrings : Brings setup other manager input allocation data effect) :
    Charged setup fiveTuple manager input (if other = fiveTuple then data.length else 0)
      (manager.allocations.lookup fiveTuple)
      ((after.countBytes other data).allocations.lookup fiveTuple) := by
  intro next hnext
  unfold countBytes at hnext
  rw [lookup_modifyAllocation, hafter] at hnext
  by_cases heq : other = fiveTuple
  · subst heq
    rw [if_pos rfl, hsome] at hnext
    rw [if_pos rfl]
    exact .inr ⟨allocation, hsome, .inr ⟨data, effect, hbrings, rfl, (Option.some.inj hnext).symm⟩⟩
  · rw [if_neg (Ne.symm heq)] at hnext
    rw [if_neg heq]
    exact charged_self _ next hnext

end Charged

section Message

variable {manager : AllocationManager} {message : Message} {effects : List Effect}

theorem relayedBytes_of_silent (hsilent : ∀ effect ∈ effects, effect.sentBytes = 0)
    {tuple : FiveTuple} {transport : ClientTransport} {datagram : Bytes}
    (hmessage : message = .client tuple transport datagram) :
    relayedBytes fiveTuple manager message effects true = 0 := by
  subst hmessage
  have hsum : (effects.map Effect.sentBytes).sum = 0 := by
    induction effects with
    | nil => rfl
    | cons effect rest ih =>
      rw [List.map_cons, List.sum_cons, hsilent effect List.mem_cons_self,
        ih fun other hother ↦ hsilent other (List.mem_cons_of_mem _ hother)]
  dsimp only [relayedBytes]
  rw [hsum, ite_self]

theorem relayedBytes_reply {replied : ClientTransport} {wire : Bytes} {tuple : FiveTuple}
    {transport : ClientTransport} {datagram : Bytes}
    (hmessage : message = .client tuple transport datagram) :
    relayedBytes fiveTuple manager message [.reply replied wire] true = 0 :=
  relayedBytes_of_silent (fun _ h ↦ List.mem_singleton.mp h ▸ rfl) hmessage

theorem relayedBytes_nil : relayedBytes fiveTuple manager message [] true = 0 := by
  cases message <;> simp [relayedBytes]

theorem relayedBytes_of_brings {input : Surroundings × Message} {other : FiveTuple}
    {allocation : Allocation} {data : Bytes} {effect : Effect}
    (hbrings : Brings setup other manager input allocation data effect) :
    relayedBytes fiveTuple manager input.2 [effect] true =
      if other = fiveTuple then data.length else 0 := by
  cases hbrings with
  | indication hsends =>
    obtain ⟨_, _, hmessage⟩ := hsends.client
    rw [hmessage]
    rfl
  | channelData hsends =>
    obtain ⟨_, _, hmessage⟩ := hsends.client
    rw [hmessage]
    rfl
  | inbound hmessage hindex =>
    rw [hmessage]
    simp [relayedBytes, hindex]

theorem sentBytes_of_plain {effect : Effect} (hplain : Plain setup effect) :
    effect.sentBytes = 0 := by
  cases effect with
  | send => exact hplain.elim
  | _ => rfl

/-- Only what a peer sends to the allocation can be lost on its way to the client. -/
theorem relayedBytes_of_reached {reached : Bool}
    (hreached : ∀ endpoint peer data, message = .relayInbound endpoint peer data →
      manager.relayIndex.lookup endpoint = some fiveTuple → reached = true) :
    relayedBytes fiveTuple manager message effects reached =
      relayedBytes fiveTuple manager message effects true := by
  cases message with
  | client => rfl
  | tick => rfl
  | relayInbound endpoint peer data =>
    by_cases hindex : manager.relayIndex.lookup endpoint = some fiveTuple
    · rw [hreached endpoint peer data rfl hindex]
    · simp [relayedBytes, hindex]

theorem relayedBytes_le (reached : Bool) :
    relayedBytes fiveTuple manager message effects reached ≤
      relayedBytes fiveTuple manager message effects true := by
  cases reached with
  | true => exact le_rfl
  | false => cases message <;> simp [relayedBytes]

end Message

/-- Every message charges the allocation with what it brings. -/
theorem charged (setup : Setup) (fiveTuple : FiveTuple) (metered : Metered)
    (input : Surroundings × Message) :
    Charged setup fiveTuple metered.manager input (metered.offered setup fiveTuple input)
      (metered.manager.allocations.lookup fiveTuple)
      ((handle setup metered.manager input).2.allocations.lookup fiveTuple) := by
  have hhandled := handled setup metered.manager input
  unfold Metered.offered
  generalize handle setup metered.manager input = outcome at hhandled ⊢
  cases hhandled with
  | ignored =>
    rw [relayedBytes_nil]
    exact charged_self _
  | answered hmessage heffects =>
    rw [relayedBytes_of_silent (fun effect h ↦ sentBytes_of_plain
      (Answers.plain (heffects effect h) : Plain setup effect)) hmessage]
    exact charged_self _
  | @allocated request username key relay hauthentic hnone hquota hrelay =>
    have hsilent : relayedBytes fiveTuple metered.manager input.2 (createAllocation setup input.1
        request metered.manager username key relay).1 true = 0 :=
      relayedBytes_reply hauthentic.message_eq
    rw [hsilent]
    intro next hnext
    obtain ⟨wire, hlookup⟩ := lookup_createAllocation setup input.1 request metered.manager
      username key relay fiveTuple
    rw [hlookup] at hnext
    split at hnext
    next heq =>
      subst heq
      exact .inl ⟨hnone, (Option.some.inj hnext) ▸ rfl⟩
    next => exact charged_self _ next hnext
  | asked hsome hasks heffects =>
    obtain ⟨_, hauthentic⟩ := hasks.authentic
    rw [relayedBytes_of_silent (fun effect h ↦ sentBytes_of_plain (heffects effect h))
      hauthentic.message_eq]
    intro next hnext
    rw [lookup_settle hsome] at hnext
    split at hnext
    next heq =>
      subst heq hnext
      exact .inr ⟨_, hsome, .inl ⟨rfl, by cases hasks <;> rfl⟩⟩
    next => exact charged_self _ next hnext
  | relayed hsome hbrings =>
    rw [relayedBytes_of_brings hbrings]
    exact charged_countBytes rfl hsome hbrings
  | reaped htick =>
    rw [htick]
    intro next hnext
    rw [lookup_reap] at hnext
    obtain ⟨allocation, hfiltered, rfl⟩ := Option.map_eq_some_iff.mp hnext
    exact .inr ⟨allocation, (Option.filter_eq_some_iff.mp hfiltered).1, .inl ⟨rfl, rfl⟩⟩

end Relaying

/-! ### Runs -/

section Run

variable (setup : Setup) (fiveTuple : FiveTuple)

/-- What a peer sends to the allocation gets past the client's transport. -/
def Reached (metered : Metered) (input : (Surroundings × Message) × Bool) : Prop :=
  ∀ endpoint peer data, input.1.2 = .relayInbound endpoint peer data →
    metered.manager.relayIndex.lookup endpoint = some fiveTuple → input.2 = true

/-- The counter of the allocation stands for what was relayed, and is within the cap. It is exact if
the client's transport loses nothing. -/
structure Accounted (lossless : Prop) (metered : Metered) (allocation : Allocation) : Prop where
  relayed_le : metered.relayed ≤ allocation.bytesRelayed
  relayed_eq : lossless → metered.relayed = allocation.bytesRelayed
  within : ∀ cap, setup.config.maxBytesPerAllocation = some cap → allocation.bytesRelayed ≤ cap

variable {setup fiveTuple}

theorem accounted_step {lossless : Prop} {metered : Metered}
    {input : (Surroundings × Message) × Bool} (hfits : metered.Fits setup fiveTuple input.1)
    (hreached : lossless → Reached fiveTuple metered input)
    (hbefore : ∀ allocation, metered.manager.allocations.lookup fiveTuple = some allocation →
      Accounted setup lossless metered allocation)
    {next : Allocation} (hnext : (metered.step setup fiveTuple input).2.manager.allocations.lookup
      fiveTuple = some next) :
    Accounted setup lossless (metered.step setup fiveTuple input).2 next := by
  have hrelayed : (metered.step setup fiveTuple input).2.relayed =
      if (metered.manager.allocations.lookup fiveTuple).isNone then 0
      else metered.relayed + relayedBytes fiveTuple metered.manager input.1.2
        (handle setup metered.manager input.1).1 input.2 := rfl
  have hcharged := charged setup fiveTuple metered input.1 next hnext
  have hle : relayedBytes fiveTuple metered.manager input.1.2
      (handle setup metered.manager input.1).1 input.2 ≤ metered.offered setup fiveTuple input.1 :=
    relayedBytes_le input.2
  have heq (h : lossless) : relayedBytes fiveTuple metered.manager input.1.2
      (handle setup metered.manager input.1).1 input.2 = metered.offered setup fiveTuple input.1 :=
    relayedBytes_of_reached (hreached h)
  generalize metered.offered setup fiveTuple input.1 = offered at hcharged hle heq
  rcases hcharged with ⟨hnone, hzero⟩ | ⟨allocation, hsome, hcharge⟩
  · rw [hnone, Option.isNone_none, if_pos rfl] at hrelayed
    exact ⟨by omega, fun _ ↦ by omega, fun cap _ ↦ by omega⟩
  · rw [hsome, Option.isNone_some, if_neg Bool.false_ne_true] at hrelayed
    have hold := hbefore allocation hsome
    have holdle := hold.relayed_le
    rcases hcharge with ⟨hzero, hsame⟩ | ⟨data, effect, hbrings, rfl, rfl⟩
    · refine ⟨by omega, fun h ↦ ?_, fun cap hcap ↦ hsame ▸ hold.within cap hcap⟩
      have := hold.relayed_eq h
      omega
    · have hcounter : (addBytes data.length allocation).bytesRelayed =
          allocation.bytesRelayed + data.length :=
        Nat.mod_eq_of_lt (hfits allocation data effect hsome hbrings)
      refine ⟨by omega, fun h ↦ ?_, fun cap hcap ↦ ?_⟩
      · have := hold.relayed_eq h
        have := heq h
        omega
      · have hbudget := hbrings.withinBudget
        rw [AllocationManager.withinBudget, hcap] at hbudget
        exact of_decide_eq_true hbudget

variable (setup fiveTuple) (inputs : List ((Surroundings × Message) × Bool))

/-- The server after some messages. -/
def meteredAt (k : ℕ) : Metered :=
  final (Metered.step setup fiveTuple) ⟨new, 0⟩ (inputs.take k)

variable {setup fiveTuple inputs}

theorem accounted_run {lossless : Prop}
    (hreached : lossless → ∀ k input, inputs[k]? = some input →
      Reached fiveTuple (meteredAt setup fiveTuple inputs k) input)
    (hfits : ∀ k input, inputs[k]? = some input →
      (meteredAt setup fiveTuple inputs k).Fits setup fiveTuple input.1)
    {k : ℕ} (hk : k ≤ inputs.length) {allocation : Allocation}
    (hsome : (meteredAt setup fiveTuple inputs k).manager.allocations.lookup fiveTuple =
      some allocation) :
    Accounted setup lossless (meteredAt setup fiveTuple inputs k) allocation := by
  revert allocation
  refine final_take_induction (fun _ metered ↦ ∀ {allocation : Allocation},
    metered.manager.allocations.lookup fiveTuple = some allocation →
      Accounted setup lossless metered allocation) (fun h ↦ ?_) (fun k input hinput hbefore ↦ ?_) hk
  · cases h
  · exact accounted_step (hfits k input hinput) (fun h ↦ hreached h k input hinput) fun _ ↦ hbefore

/-- Whatever becomes of the payloads for the client, no more than the cap is relayed. Assumes: no
payload along the run takes the counter past the largest `u64`. -/
theorem relayed_le_cap (hfits : ∀ k input, inputs[k]? = some input →
      (meteredAt setup fiveTuple inputs k).Fits setup fiveTuple input.1)
    {k : ℕ} (hk : k ≤ inputs.length) {allocation : Allocation}
    (hsome : (meteredAt setup fiveTuple inputs k).manager.allocations.lookup fiveTuple =
      some allocation) {cap : ℕ}
    (hcap : setup.config.maxBytesPerAllocation = some cap) :
    (meteredAt setup fiveTuple inputs k).relayed ≤ cap := by
  have haccounted := accounted_run False.elim hfits hk hsome
  exact haccounted.relayed_le.trans (haccounted.within cap hcap)

/-- The counter of an allocation is what was relayed through it, and within the cap. Assumes: along
the run the client's transport passes on what peers send to the allocation, and no payload takes the
counter past the largest `u64`. -/
theorem relayed_is_counted (hreached : ∀ k input, inputs[k]? = some input →
      Reached fiveTuple (meteredAt setup fiveTuple inputs k) input)
    (hfits : ∀ k input, inputs[k]? = some input →
      (meteredAt setup fiveTuple inputs k).Fits setup fiveTuple input.1)
    {k : ℕ} (hk : k ≤ inputs.length) {allocation : Allocation}
    (hsome : (meteredAt setup fiveTuple inputs k).manager.allocations.lookup fiveTuple =
      some allocation) :
    (meteredAt setup fiveTuple inputs k).relayed = allocation.bytesRelayed ∧
      ∀ cap, setup.config.maxBytesPerAllocation = some cap →
        (meteredAt setup fiveTuple inputs k).relayed ≤ cap := by
  have haccounted := accounted_run (fun _ : True ↦ hreached) hfits hk hsome
  refine ⟨haccounted.relayed_eq trivial, fun cap hcap ↦ ?_⟩
  exact haccounted.relayed_le.trans (haccounted.within cap hcap)

/-- A user allocates and gets a permission for a peer, whose datagram arrives. `reached` says what
becomes of the datagram at the client's transport. -/
def inboundRun (reached : Bool) : List ((Surroundings × Message) × Bool) :=
  [((sampleEnv 0 (some ⟨7, .v4 0xC633640A 50000⟩), sampleAllocate (text "1") 600), true),
    ((sampleEnv 5 none, samplePermit (text "1") (.v4 0xCB007109 5000)), true),
    ((sampleEnv 10 none, .relayInbound 7 (.v4 0xCB007109 5000) [1]), reached)]

/-- A server that relays one octet through an allocation. -/
def cappedSetup : Setup :=
  { sampleSetup with config := { sampleSetup.config with maxBytesPerAllocation := some 1 } }

/-- Before its permission nothing gets through the allocation of that run, and then one octet. -/
theorem fits_inboundRun {k : ℕ} {input : (Surroundings × Message) × Bool}
    (hinput : (inboundRun true)[k]? = some input) :
    (meteredAt cappedSetup sampleTuple (inboundRun true) k).Fits cappedSetup sampleTuple
      input.1 := by
  intro allocation data effect hsome hbrings
  rcases k with _ | _ | _ | k
  · cases hsome
  · have hbare : ((meteredAt cappedSetup sampleTuple (inboundRun true) 1).manager.allocations.lookup
        sampleTuple).all (fun found ↦ found.permissions.entries.isEmpty &&
          found.channels.entries.isEmpty) = true := by
      decide +kernel
    rw [hsome, Option.all_some, Bool.and_eq_true, List.isEmpty_iff, List.isEmpty_iff] at hbare
    obtain rfl := Option.some.inj hinput
    cases hbrings with
    | indication _ hpermission => simp [hasPermission, AList.lookup, hbare.1] at hpermission
    | channelData _ hbinding => simp [AList.lookup, hbare.2] at hbinding
    | inbound hmessage => cases hmessage
  · have hzero : ((meteredAt cappedSetup sampleTuple (inboundRun true) 2).manager.allocations.lookup
        sampleTuple).all (fun found ↦ found.bytesRelayed = 0) = true := by
      decide +kernel
    rw [hsome, Option.all_some, decide_eq_true_eq] at hzero
    obtain rfl := Option.some.inj hinput
    cases hbrings with
    | indication hsends =>
      obtain ⟨_, _, hmessage⟩ := hsends.client
      cases hmessage
    | channelData hsends =>
      obtain ⟨_, _, hmessage⟩ := hsends.client
      cases hmessage
    | inbound hmessage =>
      obtain ⟨-, -, rfl⟩ := Message.relayInbound.inj hmessage
      rw [hzero]
      decide
  · cases hinput

theorem bytesRelayed_inboundRun :
    ∃ allocation, (meteredAt cappedSetup sampleTuple (inboundRun true) 3).manager.allocations.lookup
        sampleTuple = some allocation ∧ allocation.bytesRelayed = 1 := by
  have hcounter : ((meteredAt cappedSetup sampleTuple (inboundRun true) 3).manager.allocations
      |>.lookup sampleTuple).map (·.bytesRelayed) = some 1 := by
    decide +kernel
  exact Option.map_eq_some_iff.mp hcounter

/-- The datagram that reaches the client is relayed and counted, up to the cap. -/
theorem relayed_is_counted_inbound :
    ∃ allocation, (meteredAt cappedSetup sampleTuple (inboundRun true) 3).manager.allocations.lookup
        sampleTuple = some allocation ∧
      (meteredAt cappedSetup sampleTuple (inboundRun true) 3).relayed = allocation.bytesRelayed ∧
      allocation.bytesRelayed = 1 ∧
      (meteredAt cappedSetup sampleTuple (inboundRun true) 3).relayed ≤ 1 := by
  obtain ⟨allocation, hsome, hone⟩ := bytesRelayed_inboundRun
  have hreached : ∀ input ∈ inboundRun true, input.2 = true := by decide
  obtain ⟨hcounted, hcap⟩ := relayed_is_counted
    (fun k input hinput _ _ _ _ _ ↦ hreached input (List.mem_of_getElem? hinput))
    (fun k input hinput ↦ fits_inboundRun hinput) (by decide) hsome
  exact ⟨allocation, hsome, hcounted, hone, hcap 1 rfl⟩

/-- One octet is relayed through an allocation capped at one octet. -/
theorem relayed_le_cap_one :
    (meteredAt cappedSetup sampleTuple (inboundRun true) 3).relayed = 1 ∧
      (meteredAt cappedSetup sampleTuple (inboundRun true) 3).relayed ≤ 1 := by
  obtain ⟨allocation, hsome, -⟩ := bytesRelayed_inboundRun
  exact ⟨by decide +kernel,
    relayed_le_cap (fun k input hinput ↦ fits_inboundRun hinput) (by decide) hsome rfl⟩

/-- The datagram that does not reach the client is counted all the same. -/
theorem lost_datagram_is_counted :
    (meteredAt sampleSetup sampleTuple (inboundRun false) 3).relayed = 0 ∧
      ((meteredAt sampleSetup sampleTuple (inboundRun false) 3).manager.allocations.lookup
        sampleTuple).map (·.bytesRelayed) = some 1 := by
  decide +kernel

end Run

end AllocationManager

end SiphonRtp.Turn
