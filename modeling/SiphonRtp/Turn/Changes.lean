import SiphonRtp.Turn.Handled

/-!
# What a message can do to one allocation

`Changed` is `Handled` seen from one 5-tuple: the allocation there before a message and after it,
with the request that is responsible. `changed` says that every message does one of these. The
history of an allocation along a run (who made it, who lengthened it, who named the peers it relays
to) is read from it, whatever happens to the other tables.
-/

set_option autoImplicit false

namespace SiphonRtp.Turn

open Machine Datapath Stun

namespace AllocationManager

/-- What a message can do to the allocation of a 5-tuple. -/
inductive Changed (setup : Setup) (input : Surroundings × Message) (fiveTuple : FiveTuple) :
    Option Allocation → Option Allocation → Prop
  | kept {before : Option Allocation} : Changed setup input fiveTuple before before
  | counted {allocation : Allocation} (length : ℕ) :
      Changed setup input fiveTuple (some allocation) (some (addBytes length allocation))
  | created {request : Request} {username wire : Bytes} {relay : Endpoint}
      (hauthentic : Authentic setup input request methodAllocate username)
      (htuple : request.fiveTuple = fiveTuple) :
      Changed setup input fiveTuple none
        (some ⟨request.transport, relay, username,
          input.1.now + (grantedLifetime setup.config request.message).toNat, ∅, ∅, ∅,
          some (request.message.transactionId, wire), 0⟩)
  | asked {request : Request} {username : Bytes} {allocation : Allocation}
      {after : Option Allocation} (hasks : Asks setup input request username allocation after)
      (htuple : request.fiveTuple = fiveTuple) :
      Changed setup input fiveTuple (some allocation) after
  | expired {allocation : Allocation} (htick : input.2 = .tick)
      (hexpired : allocation.expiresAt ≤ input.1.now) :
      Changed setup input fiveTuple (some allocation) none
  | pruned {allocation : Allocation} (htick : input.2 = .tick)
      (halive : input.1.now < allocation.expiresAt) :
      Changed setup input fiveTuple (some allocation) (some (allocation.prune input.1.now))

section Steps

variable {setup : Setup} {manager : AllocationManager} {input : Surroundings × Message}
  {fiveTuple : FiveTuple}

theorem changed_countBytes (other : FiveTuple) (data : Bytes) :
    Changed setup input fiveTuple (manager.allocations.lookup fiveTuple)
      ((manager.countBytes other data).allocations.lookup fiveTuple) := by
  unfold countBytes
  rw [lookup_modifyAllocation]
  split_ifs
  · cases manager.allocations.lookup fiveTuple with
    | none => exact .kept
    | some allocation => exact .counted data.length
  · exact .kept

theorem changed_reap (htick : input.2 = .tick) :
    Changed setup input fiveTuple (manager.allocations.lookup fiveTuple)
      ((manager.reap input.1.now).2.allocations.lookup fiveTuple) := by
  rw [lookup_reap]
  rcases manager.allocations.lookup fiveTuple with _ | allocation
  · exact .kept
  · by_cases halive : input.1.now < allocation.expiresAt
    · rw [Option.filter_some, if_pos (decide_eq_true halive)]
      exact .pruned htick halive
    · rw [Option.filter_some, if_neg (by simpa using halive)]
      exact .expired htick (Nat.le_of_not_lt halive)

end Steps

/-- Every message does one of these to the allocation of a 5-tuple. -/
theorem changed (setup : Setup) (manager : AllocationManager) (input : Surroundings × Message)
    (fiveTuple : FiveTuple) :
    Changed setup input fiveTuple (manager.allocations.lookup fiveTuple)
      ((handle setup manager input).2.allocations.lookup fiveTuple) := by
  have hhandled := handled setup manager input
  generalize handle setup manager input = outcome at hhandled
  cases hhandled with
  | ignored => exact .kept
  | answered hmessage heffects => exact .kept
  | @allocated request username key relay hauthentic hnone hquota hrelay =>
    obtain ⟨wire, hlookup⟩ := lookup_createAllocation setup input.1 request manager username key
      relay fiveTuple
    rw [hlookup]
    split_ifs with heq
    · subst heq
      rw [hnone]
      exact .created hauthentic rfl
    · exact .kept
  | asked hsome hasks heffects =>
    rw [lookup_settle hsome]
    split_ifs with heq
    · subst heq
      rw [hsome]
      exact .asked hasks rfl
    · exact .kept
  | relayed hsome hbrings => exact changed_countBytes _ _
  | reaped htick => exact changed_reap htick

end AllocationManager

end SiphonRtp.Turn
