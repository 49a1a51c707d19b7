import SiphonRtp.Turn.Changes

/-!
# Allocations past their lifetime

Only the reaper reads the tick an allocation expires at. Until it runs, an allocation that is past
it is served like any other: payloads go through it both ways as long as the permission or the
channel they need has not expired, and a Refresh gives it a new lifetime.

`expired_dead_iff` says exactly when a run shows none of this: when no message finds an expired
allocation that would serve it (`Served`). What the reaper guarantees is `idle_server_drains`.
-/

set_option autoImplicit false

namespace SiphonRtp.Turn

open Machine Datapath Stun

namespace AllocationManager

/-- The allocation a message is about: that of the client's 5-tuple, or that of the relay. -/
def Concerns (manager : AllocationManager) (fiveTuple : FiveTuple) : Message → Prop
  | .client tuple _ _ => tuple = fiveTuple
  | .relayInbound endpoint _ _ => manager.relayIndex.lookup endpoint = some fiveTuple
  | .tick => False

/-- A message whose payload is relayed through an allocation. -/
def Relays (setup : Setup) (manager : AllocationManager) (input : Surroundings × Message)
    (fiveTuple : FiveTuple) : Prop :=
  manager.Concerns fiveTuple input.2 ∧ ∃ effect ∈ (handle setup manager input).1,
    Carries input.2 effect

/-- A message after which an allocation lasts longer. -/
def Extends (setup : Setup) (manager : AllocationManager) (input : Surroundings × Message)
    (fiveTuple : FiveTuple) : Prop :=
  ∃ allocation next, manager.allocations.lookup fiveTuple = some allocation ∧
    (handle setup manager input).2.allocations.lookup fiveTuple = some next ∧
      allocation.expiresAt < next.expiresAt

/-- What an allocation serves, whatever its own lifetime: a Refresh with credentials, and payloads
with an unexpired permission or channel. -/
inductive Served (setup : Setup) (manager : AllocationManager) (input : Surroundings × Message)
    (fiveTuple : FiveTuple) (allocation : Allocation) : Prop
  | refresh {request : Request} {username : Bytes}
      (hauthentic : Authentic setup input request methodRefresh username)
      (htuple : request.fiveTuple = fiveTuple)
      (hnonzero : (lifetime request.message).getD setup.config.defaultLifetime ≠ 0)
  | payload {data : Bytes} {effect : Effect}
      (hbrings : Brings setup fiveTuple manager input allocation data effect)

/-- A granted lifetime is a second at least. -/
theorem clampLifetime_pos (config : TurnConfig) (requested : UInt32) :
    0 < (clampLifetime config requested).toNat := by
  unfold clampLifetime
  generalize min requested config.maxLifetime = capped
  rw [show max capped 1 = if capped ≤ 1 then 1 else capped from rfl]
  split_ifs with hsmall
  · decide
  · exact Nat.lt_of_lt_of_le Nat.zero_lt_one (Nat.le_of_not_le hsmall)

/-! ### One message -/

/-- A payload concerns the allocation that it is brought to, and no other. -/
theorem Brings.concerns_iff {setup : Setup} {manager : AllocationManager}
    {input : Surroundings × Message} {fiveTuple other : FiveTuple} {allocation : Allocation}
    {data : Bytes} {effect : Effect}
    (hbrings : Brings setup fiveTuple manager input allocation data effect) :
    manager.Concerns other input.2 ↔ fiveTuple = other := by
  cases hbrings with
  | indication hsends =>
    obtain ⟨_, _, hmessage⟩ := hsends.client
    rw [hmessage, Concerns]
  | channelData hsends =>
    obtain ⟨_, _, hmessage⟩ := hsends.client
    rw [hmessage, Concerns]
  | inbound hmessage hindex => rw [hmessage, Concerns, hindex, Option.some.injEq]

/-- Only a datagram of a peer is carried on by a plain effect. -/
theorem Plain.not_carries {setup : Setup} {message : Message} {effect : Effect}
    (hplain : Plain setup effect)
    (hnot : ∀ endpoint peer data, message ≠ .relayInbound endpoint peer data) :
    ¬ Carries message effect := by
  intro hcarries
  rcases message with _ | ⟨endpoint, peer, data⟩ | _
  · cases effect with
    | send => exact hplain
    | _ => exact hcarries
  · exact hnot endpoint peer data rfl
  · exact hcarries

section Serving

variable {setup : Setup} {manager : AllocationManager} {input : Surroundings × Message}
  {fiveTuple : FiveTuple} {allocation : Allocation}
  (hsome : manager.allocations.lookup fiveTuple = some allocation)

include hsome

/-- Nothing but a Refresh with credentials lengthens an allocation. -/
theorem served_of_extends (hextends : Extends setup manager input fiveTuple) :
    Served setup manager input fiveTuple allocation := by
  obtain ⟨found, next, hfound, hnext, hlonger⟩ := hextends
  obtain rfl := Option.some.inj (hsome.symm.trans hfound)
  have hchanged := changed setup manager input fiveTuple
  rw [hsome, hnext] at hchanged
  cases hchanged with
  | asked hasks htuple =>
    cases hasks with
    | refreshes hauthentic hnonzero => exact .refresh hauthentic htuple hnonzero
    | _ => exact absurd hlonger (Nat.lt_irrefl _)
  | _ => exact absurd hlonger (Nat.lt_irrefl _)

/-- A payload goes through an allocation only with an unexpired permission or channel. -/
theorem served_of_relays (hrelays : Relays setup manager input fiveTuple) :
    Served setup manager input fiveTuple allocation := by
  obtain ⟨hconcerns, effect, heffect, hcarries⟩ := hrelays
  rcases brings_of_mem heffect with ⟨_, _, _, hfound, hbrings⟩ | ⟨hplain, hnot⟩
  · obtain rfl := hbrings.concerns_iff.mp hconcerns
    obtain rfl := Option.some.inj (hsome.symm.trans hfound)
    exact .payload hbrings
  · exact absurd hcarries (hplain.not_carries hnot)

/-- What an allocation serves is relayed through it or lengthens it. Assumes: it has expired. -/
theorem relays_or_extends_of_served (hexpired : allocation.expiresAt ≤ input.1.now)
    (hserved : Served setup manager input fiveTuple allocation) :
    Relays setup manager input fiveTuple ∨ Extends setup manager input fiveTuple := by
  cases hserved with
  | @refresh request _ hauthentic htuple hnonzero =>
    subst htuple
    have hpositive := clampLifetime_pos setup.config
      ((lifetime request.message).getD setup.config.defaultLifetime)
    refine Or.inr ⟨allocation, _, hsome,
      lookup_of_asks hsome (.refreshes hauthentic hnonzero), ?_⟩
    exact Nat.lt_of_le_of_lt hexpired (Nat.lt_add_of_pos_right hpositive)
  | payload hbrings =>
    obtain ⟨passed, hpassed, hcarries⟩ := handle_of_brings hsome hbrings
    refine Or.inl ⟨hbrings.concerns_iff.mpr rfl, passed, ?_, hcarries⟩
    rw [hpassed]
    exact List.mem_singleton_self passed

end Serving

/-! ### Runs -/

/-- When an expired allocation is dead. For every run from an empty server: nothing is relayed
through an allocation from its expiry on, and none that has expired is lengthened, if and only if no
message of the run finds an expired allocation that serves it. -/
theorem expired_dead_iff (setup : Setup) (inputs : List (Surroundings × Message)) :
    (∀ k input, inputs[k]? = some input → ∀ fiveTuple allocation,
      (final (handle setup) new (inputs.take k)).allocations.lookup fiveTuple = some allocation →
        allocation.expiresAt ≤ input.1.now →
          ¬ Relays setup (final (handle setup) new (inputs.take k)) input fiveTuple ∧
            ¬ Extends setup (final (handle setup) new (inputs.take k)) input fiveTuple) ↔
      ∀ k input, inputs[k]? = some input → ∀ fiveTuple allocation,
        (final (handle setup) new (inputs.take k)).allocations.lookup fiveTuple = some allocation →
          allocation.expiresAt ≤ input.1.now →
            ¬ Served setup (final (handle setup) new (inputs.take k)) input fiveTuple
              allocation := by
  refine forall₃_congr fun k input hinput ↦ ?_
  refine forall₄_congr fun fiveTuple allocation hsome hexpired ↦ ?_
  rw [← not_or, not_iff_not]
  constructor
  · exact fun h ↦ h.elim (served_of_relays hsome) (served_of_extends hsome)
  · exact relays_or_extends_of_served hsome hexpired

/-- A user allocates for ten seconds and binds a channel. -/
def shortRun : List (Surroundings × Message) :=
  [(sampleEnv 0 (some ⟨7, .v4 0xC633640A 50000⟩), sampleAllocate (text "1") 10),
    (sampleEnv 5 none, sampleBind (text "1") 0x4000 (.v4 0xCB007109 5000))]

/-- Ten seconds later, without a tick of the reaper in between, the expired allocation relays
ChannelData to the peer and the peer's datagrams to the client, and a Refresh gives it ten more
minutes. -/
theorem expired_allocation_serves :
    let manager := final (handle sampleSetup) new shortRun
    (manager.allocations.lookup sampleTuple).map (·.expiresAt) = some 10 ∧
      (handle sampleSetup manager (sampleEnv 20 none, .client sampleTuple
        (.udp sampleTuple.client) (encodeChannelData 0x4000 [1, 2, 3] false))).1 =
          [.send 7 (.v4 0xCB007109 5000) [1, 2, 3]] ∧
      (handle sampleSetup manager
        (sampleEnv 20 none, .relayInbound 7 (.v4 0xCB007109 5000) [4])).1 =
          [.reply (.udp sampleTuple.client) (encodeChannelData 0x4000 [4] false)] ∧
      ((handle sampleSetup manager (sampleEnv 20 none, sampleRequest (text "1") methodRefresh
        [(attrLifetime, lifetimeValue 600)])).2.allocations.lookup sampleTuple).map (·.expiresAt) =
          some 620 := by
  decide +kernel

/-! ### Ticks -/

theorem clampLifetime_le (config : TurnConfig) (requested : UInt32) :
    (clampLifetime config requested).toNat ≤ max config.maxLifetime.toNat 1 := by
  simp only [clampLifetime, max, min, UInt32.le_iff_toNat_le]
  split_ifs <;> simp_all <;> omega

/-- A relay that is deleted goes back to the datapath. -/
theorem relay_removed {fiveTuple : FiveTuple} {allocation : Allocation} {tuples : List FiveTuple}
    (hmem : fiveTuple ∈ tuples) {manager : AllocationManager}
    (hsome : manager.allocations.lookup fiveTuple = some allocation) :
    .removeEndpoint allocation.relay.id ∈ (manager.deleteAllocations tuples).1 := by
  induction tuples generalizing manager with
  | nil => exact nomatch hmem
  | cons other rest ih =>
    by_cases hother : fiveTuple = other
    · subst hother
      simp [deleteAllocations, deleteAllocation, hsome]
    · refine List.mem_append_right _ (ih (List.mem_of_ne_of_mem hother hmem) ?_)
      rw [lookup_deleteAllocation, if_neg hother, hsome]

section

variable {setup : Setup} {inputs : List (Surroundings × Message)} {latest : ℕ}
  (hlatest : ∀ input ∈ inputs, input.1.now ≤ latest) {fiveTuple : FiveTuple}
  {allocation : Allocation}

include hlatest

/-- Up to its latest tick, a run gives no allocation more than the longest lifetime. -/
theorem expiresAt_le_of_run
    (hsome : (final (handle setup) new inputs).allocations.lookup fiveTuple = some allocation) :
    allocation.expiresAt ≤ latest + max setup.config.maxLifetime.toNat 1 := by
  refine final_invariant (fun manager : AllocationManager ↦ ∀ next,
    manager.allocations.lookup fiveTuple = some next → next.expiresAt ≤ latest + _)
    (fun manager input hinput hbefore next hnext ↦ ?_) (fun _ h ↦ by cases h) allocation hsome
  have hchanged := changed setup manager input fiveTuple
  rw [hnext] at hchanged
  generalize manager.allocations.lookup fiveTuple = before at hbefore hchanged
  cases hchanged with
  | created => exact Nat.add_le_add (hlatest input hinput) (clampLifetime_le ..)
  | asked hasks =>
    cases hasks with
    | refreshes => exact Nat.add_le_add (hlatest input hinput) (clampLifetime_le ..)
    | _ => exact (hbefore _ rfl :)
  | kept => exact hbefore next rfl
  | _ => exact (hbefore _ rfl :)

/-- An idle server drains. Assumes: no message of the run came later than a time that the longest
lifetime has passed since. The next tick then leaves it no allocation, and every relay goes back to
the datapath. -/
theorem idle_server_drains {env : Surroundings}
    (hidle : latest + max setup.config.maxLifetime.toNat 1 ≤ env.now) (fiveTuple : FiveTuple) :
    let manager := final (handle setup) new inputs
    (∀ allocation, manager.allocations.lookup fiveTuple = some allocation →
      .removeEndpoint allocation.relay.id ∈ (handle setup manager (env, .tick)).1) ∧
      (handle setup manager (env, .tick)).2.allocations.lookup fiveTuple = none := by
  intro manager
  have hexpired := fun allocation hsome ↦
    (@expiresAt_le_of_run setup inputs latest hlatest fiveTuple allocation hsome).trans hidle
  refine ⟨fun allocation hsome ↦ List.mem_append_right _ ?_,
    (lookup_reap manager env.now fiveTuple).trans ?_⟩
  · have hmem := mem_expired.mpr ⟨allocation, hsome, hexpired allocation hsome⟩
    refine @relay_removed _ (allocation.prune env.now) _ hmem _ ?_
    rw [lookup_pruned, hsome, Option.map_some]
  · rw [Option.map_eq_none_iff, Option.filter_eq_none_iff]
    exact fun allocation hsome ↦ by simpa using hexpired allocation hsome

end

theorem idle_server_drains_short :
    (handle sampleSetup (final (handle sampleSetup) new shortRun)
      (sampleEnv 3605 none, .tick)).2.allocations.lookup sampleTuple = none :=
  (@idle_server_drains sampleSetup shortRun 5 (by decide) (sampleEnv 3605 none) (by decide) _).2

end AllocationManager

end SiphonRtp.Turn
