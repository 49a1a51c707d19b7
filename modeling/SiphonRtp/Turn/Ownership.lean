import SiphonRtp.Turn.Changes

/-!
# Who an allocation belongs to

An allocation keeps the username of the Allocate that made it (`CreatedBy.username_eq`), but the
handlers of Refresh, CreatePermission and ChannelBind find it by the 5-tuple alone and never
compare usernames: anyone with credentials of the server who can send on the 5-tuple can delete it,
lengthen it or open it to other peers.

`owned_iff` says exactly when a run shows none of this: when no request of it that would change an
allocation comes under another username (`Foreign`).
-/

set_option autoImplicit false

namespace SiphonRtp.Turn

open Machine Datapath Stun

/-! ### Credentials -/

/-- The username a client message authenticates under. -/
def authenticatedAs (setup : Setup) (input : Surroundings × Message) : Option Bytes :=
  match input.2 with
  | .client fiveTuple transport datagram =>
    match parse datagram with
    | .ok message =>
      match authenticate setup input.1 ⟨fiveTuple, transport, message, datagram⟩ with
      | .ok username _ => some username
      | _ => none
    | .error _ => none
  | _ => none

/-- A message authenticates under one username. -/
theorem Authentic.authenticatedAs_eq {setup : Setup} {input : Surroundings × Message}
    {request : Request} {method : UInt16} {username : Bytes}
    (hauthentic : Authentic setup input request method username) :
    authenticatedAs setup input = some username := by
  obtain ⟨key, hkey⟩ := hauthentic.accepted
  unfold authenticatedAs
  rw [hauthentic.message_eq]
  dsimp only
  rw [hauthentic.parsed]
  dsimp only
  rw [hkey]

namespace AllocationManager

/-! ### What belongs to a user -/

/-- The same existence, lifetime, permissions and channels. -/
def Same : Option Allocation → Option Allocation → Prop
  | none, none => True
  | some allocation, some next =>
    next.expiresAt = allocation.expiresAt ∧
      (∀ ip, next.permissions.lookup ip = allocation.permissions.lookup ip) ∧
      (∀ channel, next.channels.lookup channel = allocation.channels.lookup channel) ∧
      ∀ peer, next.peerToChannel.lookup peer = allocation.peerToChannel.lookup peer
  | _, _ => False

theorem same_refl (allocation : Option Allocation) : Same allocation allocation := by
  cases allocation with
  | none => exact trivial
  | some allocation => exact ⟨rfl, fun _ ↦ rfl, fun _ ↦ rfl, fun _ ↦ rfl⟩

/-- Expiry: a tick of the reaper takes what is past its lifetime. -/
def Lapses (input : Surroundings × Message) (before after : Option Allocation) : Prop :=
  input.2 = .tick ∧ after =
    (before.filter fun allocation ↦ decide (input.1.now < allocation.expiresAt)).map
      (Allocation.prune input.1.now)

/-- The allocation that a 5-tuple has after `k` messages of a run was made under a username: by an
Allocate before them, and it has been there since. -/
def CreatedBy (setup : Setup) (inputs : List (Surroundings × Message)) (k : ℕ)
    (fiveTuple : FiveTuple) (username : Bytes) : Prop :=
  ∃ j input request, j < k ∧ inputs[j]? = some input ∧
    Authentic setup input request methodAllocate username ∧ request.fiveTuple = fiveTuple ∧
    (final (handle setup) new (inputs.take j)).allocations.lookup fiveTuple = none ∧
    ∀ i, j < i → i ≤ k →
      (final (handle setup) new (inputs.take i)).allocations.lookup fiveTuple ≠ none

/-- A message that leaves an allocation of a user as it is, unless it expires or they ask for the
change. -/
def Respects (setup : Setup) (manager : AllocationManager) (input : Surroundings × Message)
    (fiveTuple : FiveTuple) (username : Bytes) : Prop :=
  Same (manager.allocations.lookup fiveTuple)
      ((handle setup manager input).2.allocations.lookup fiveTuple) ∨
    Lapses input (manager.allocations.lookup fiveTuple)
      ((handle setup manager input).2.allocations.lookup fiveTuple) ∨
    ∃ request method, Authentic setup input request method username ∧
      request.fiveTuple = fiveTuple

/-- A request under another username than the allocation's that changes it all the same. -/
def Foreign (setup : Setup) (input : Surroundings × Message) (fiveTuple : FiveTuple)
    (allocation : Allocation) : Prop :=
  ∃ request username after, Asks setup input request username allocation after ∧
    request.fiveTuple = fiveTuple ∧ username ≠ allocation.username ∧
    ¬ Same (some allocation) after

/-! ### One message -/

section Steps

variable {setup : Setup} {manager : AllocationManager} {input : Surroundings × Message}
  {fiveTuple : FiveTuple} {allocation : Allocation}

/-- No message changes whose an allocation is. -/
theorem username_of_changed {next : Allocation}
    (hchanged : Changed setup input fiveTuple (some allocation) (some next)) :
    next.username = allocation.username := by
  cases hchanged with
  | asked hasks => cases hasks <;> rfl
  | _ => rfl

/-- A message respects an allocation or is a request under another username that changes it. -/
theorem respects_of_not_foreign
    (hsome : manager.allocations.lookup fiveTuple = some allocation)
    (hforeign : ¬ Foreign setup input fiveTuple allocation) :
    Respects setup manager input fiveTuple allocation.username := by
  have hchanged := changed setup manager input fiveTuple
  unfold Respects
  rw [hsome] at hchanged ⊢
  generalize (handle setup manager input).2.allocations.lookup fiveTuple = after at *
  cases hchanged with
  | kept => exact Or.inl (same_refl _)
  | counted length => exact Or.inl ⟨rfl, fun _ ↦ rfl, fun _ ↦ rfl, fun _ ↦ rfl⟩
  | asked hasks htuple =>
    by_cases hsame : Same (some allocation) after
    · exact Or.inl hsame
    · -- it changes something, so it is one of the user themselves
      obtain ⟨method, hauthentic⟩ := hasks.authentic
      have husername :=
        not_ne_iff.mp fun hother ↦ hforeign ⟨_, _, after, hasks, htuple, hother, hsame⟩
      exact Or.inr (Or.inr ⟨_, method, husername ▸ hauthentic, htuple⟩)
  | expired htick hexpired =>
    refine Or.inr (Or.inl ⟨htick, ?_⟩)
    rw [Option.filter_some, if_neg (by simpa using hexpired), Option.map_none]
  | pruned htick halive =>
    refine Or.inr (Or.inl ⟨htick, ?_⟩)
    rw [Option.filter_some, if_pos (decide_eq_true halive), Option.map_some]

/-- A request under another username is neither expiry nor the user's own. -/
theorem same_of_respects {request : Request} {method : UInt16} {username : Bytes}
    (hauthentic : Authentic setup input request method username)
    (hforeign : username ≠ allocation.username)
    (hrespects : Respects setup manager input fiveTuple allocation.username) :
    Same (manager.allocations.lookup fiveTuple)
      ((handle setup manager input).2.allocations.lookup fiveTuple) := by
  rcases hrespects with hsame | ⟨htick, -⟩ | ⟨other, otherMethod, hother, -⟩
  · exact hsame
  · exact nomatch hauthentic.message_eq.symm.trans htick
  · have husername := hauthentic.authenticatedAs_eq.symm.trans hother.authenticatedAs_eq
    exact absurd (Option.some.inj husername) hforeign

/-- A request under another username that changes an allocation does not respect it. -/
theorem not_respects_of_foreign
    (hsome : manager.allocations.lookup fiveTuple = some allocation)
    (hforeign : Foreign setup input fiveTuple allocation) :
    ¬ Respects setup manager input fiveTuple allocation.username := by
  intro hrespects
  obtain ⟨request, username, after, hasks, rfl, husername, hchanges⟩ := hforeign
  obtain ⟨method, hauthentic⟩ := hasks.authentic
  have hsame := same_of_respects hauthentic husername hrespects
  rw [lookup_of_asks hsome hasks, hsome] at hsame
  exact hchanges hsame

end Steps

/-! ### Runs -/

section Runs

variable {setup : Setup} {inputs : List (Surroundings × Message)} {k : ℕ} {fiveTuple : FiveTuple}

/-- An allocation has the username it was made under. -/
theorem CreatedBy.username_eq {username : Bytes}
    (hcreated : CreatedBy setup inputs k fiveTuple username) (hk : k ≤ inputs.length) :
    ∃ allocation,
      (final (handle setup) new (inputs.take k)).allocations.lookup fiveTuple = some allocation ∧
        allocation.username = username := by
  obtain ⟨j, input, request, hjk, hinput, hauthentic, htuple, hnone, hsince⟩ := hcreated
  induction k, hjk using Nat.le_induction with
  | base =>
    have hsome := hsince (j + 1) (Nat.lt_succ_self j) (Nat.le_refl _)
    have hchanged := changed setup (final (handle setup) new (inputs.take j)) input fiveTuple
    rw [final_take_succ (handle setup) hinput] at hsome ⊢
    rw [hnone] at hchanged
    generalize AList.lookup fiveTuple _ = after at hchanged hsome ⊢
    cases hchanged with
    | kept => exact absurd rfl hsome
    | created hother _ =>
      exact ⟨_, rfl, Option.some.inj
        (hother.authenticatedAs_eq.symm.trans hauthentic.authenticatedAs_eq)⟩
  | succ k hjk ih =>
    obtain ⟨allocation, hallocation, husername⟩ := ih (Nat.le_of_succ_le hk)
      fun i hji hik ↦ hsince i hji (Nat.le_succ_of_le hik)
    have hsome := hsince (k + 1) (Nat.lt_of_lt_of_le hjk (Nat.le_succ k)) (Nat.le_refl _)
    have hnext := List.getElem?_eq_getElem hk
    have hchanged := changed setup (final (handle setup) new (inputs.take k)) (inputs.get ⟨k, hk⟩)
      fiveTuple
    rw [final_take_succ (handle setup) hnext] at hsome ⊢
    rw [hallocation] at hchanged
    obtain ⟨next, hlookup⟩ := Option.ne_none_iff_exists'.mp hsome
    rw [List.get_eq_getElem, hlookup] at hchanged
    exact ⟨next, hlookup, (username_of_changed hchanged).trans husername⟩

/-- Every allocation was made under its username. -/
theorem createdBy_of_lookup (hk : k ≤ inputs.length) {allocation : Allocation}
    (hsome : (final (handle setup) new (inputs.take k)).allocations.lookup fiveTuple =
      some allocation) :
    CreatedBy setup inputs k fiveTuple allocation.username := by
  induction k generalizing allocation with
  | zero => exact nomatch hsome
  | succ k ih =>
    have hinput := List.getElem?_eq_getElem hk
    have hchanged := changed setup (final (handle setup) new (inputs.take k)) (inputs.get ⟨k, hk⟩)
      fiveTuple
    rw [final_take_succ (handle setup) hinput] at hsome
    rw [List.get_eq_getElem, hsome] at hchanged
    rcases hbefore : (final (handle setup) new (inputs.take k)).allocations.lookup fiveTuple with
      _ | found
    · -- it is new: this message is the Allocate
      rw [hbefore] at hchanged
      cases hchanged with
      | created hauthentic htuple =>
        refine ⟨k, _, _, Nat.lt_succ_self k, hinput, hauthentic, htuple, hbefore, ?_⟩
        intro i hki hik
        obtain rfl := Nat.le_antisymm hik hki
        rw [final_take_succ (handle setup) hinput, hsome]
        exact Option.some_ne_none _
    · rw [hbefore] at hchanged
      obtain ⟨j, input, request, hjk, hj, hauthentic, htuple, hnone, hsince⟩ :=
        ih (Nat.le_of_succ_le hk) hbefore
      rw [username_of_changed hchanged]
      refine ⟨j, input, request, Nat.lt_succ_of_lt hjk, hj, hauthentic, htuple, hnone, ?_⟩
      intro i hji hik
      rcases Nat.le_succ_iff.mp hik with hle | rfl
      · exact hsince i hji hle
      · rw [final_take_succ (handle setup) hinput, hsome]
        exact Option.some_ne_none _

end Runs

/-- When an allocation belongs to who made it. For every run from an empty server: each allocation
is changed only by expiry and by requests of the user whose Allocate request made it, if and only if
no request of the run under another username would change the allocation it finds. -/
theorem owned_iff (setup : Setup) (inputs : List (Surroundings × Message)) :
    (∀ k input, inputs[k]? = some input → ∀ fiveTuple username,
      CreatedBy setup inputs k fiveTuple username →
        Respects setup (final (handle setup) new (inputs.take k)) input fiveTuple username) ↔
      ∀ k input, inputs[k]? = some input → ∀ fiveTuple allocation,
        (final (handle setup) new (inputs.take k)).allocations.lookup fiveTuple = some allocation →
          ¬ Foreign setup input fiveTuple allocation := by
  constructor
  · intro howned k input hinput fiveTuple allocation hsome hforeign
    obtain ⟨hk, -⟩ := List.getElem?_eq_some_iff.mp hinput
    exact not_respects_of_foreign hsome hforeign
      (howned k input hinput fiveTuple _ (createdBy_of_lookup (Nat.le_of_lt hk) hsome))
  · intro hown k input hinput fiveTuple username hcreated
    obtain ⟨hk, -⟩ := List.getElem?_eq_some_iff.mp hinput
    obtain ⟨allocation, hsome, rfl⟩ := hcreated.username_eq (Nat.le_of_lt hk)
    exact respects_of_not_foreign hsome (hown k input hinput fiveTuple allocation hsome)

/-- A user allocates, and another one sends a Refresh with a lifetime of zero on their 5-tuple. -/
def strangerRun : List (Surroundings × Message) :=
  [(sampleEnv 0 (some ⟨7, .v4 0xC633640A 50000⟩), sampleAllocate (text "1") 600),
    (sampleEnv 5 none,
      sampleRequest (text "2") methodRefresh [(attrLifetime, lifetimeValue 0)])]

/-- It authenticates, under the other username, and the allocation is gone. -/
theorem stranger_deletes :
    ((final (handle sampleSetup) new (strangerRun.take 1)).allocations.lookup sampleTuple).map
        (·.username) = some (text "1") ∧
      (strangerRun[1]?.bind (authenticatedAs sampleSetup)) = some (text "2") ∧
      ((final (handle sampleSetup) new strangerRun).allocations.lookup sampleTuple).isNone := by
  decide +kernel

end AllocationManager

end SiphonRtp.Turn
