import SiphonRtp.Turn.Changes

/-!
# The deny policy and IPv4 in IPv6

Every path checks the policy: an address it denies gets no permission, no channel and no route, and
nothing goes to it or comes from it (`refuses_of_denied`). The policy however reads an IPv4-mapped
IPv6 address as any other IPv6 address, none of whose ranges holds it, and the codec does not
unmap: a denied IPv4 address is reached under its other name. `mapped_refused_iff` says for which
policies this is not so: those that list the mapped form of every IPv4 address they deny.
-/

set_option autoImplicit false

namespace SiphonRtp.Turn

open Machine Datapath Stun

namespace AllocationManager

/-- A message that gives an address nothing: no permission, channel or route that was not there,
and no payload either way. -/
structure Refuses (setup : Setup) (manager : AllocationManager) (input : Surroundings × Message)
    (ip : IpAddr) : Prop where
  permission : ∀ fiveTuple next expiry,
    (handle setup manager input).2.allocations.lookup fiveTuple = some next →
      next.permissions.lookup ip = some expiry → ∃ allocation,
        manager.allocations.lookup fiveTuple = some allocation ∧
          allocation.permissions.lookup ip = some expiry
  channel : ∀ fiveTuple next number binding,
    (handle setup manager input).2.allocations.lookup fiveTuple = some next →
      next.channels.lookup number = some binding → binding.peer.ip = ip → ∃ allocation,
        manager.allocations.lookup fiveTuple = some allocation ∧
          allocation.channels.lookup number = some binding
  route : ∀ route, .installChannel route ∈ (handle setup manager input).1 → route.peer.ip ≠ ip
  send : ∀ endpoint peer data, .send endpoint peer data ∈ (handle setup manager input).1 →
    peer.ip ≠ ip
  deliver : ∀ endpoint peer data, input.2 = .relayInbound endpoint peer data → peer.ip = ip →
    (handle setup manager input).1 = []

/-! ### Denied addresses -/

section Denied

variable {setup : Setup} {input : Surroundings × Message} {fiveTuple : FiveTuple} {ip : IpAddr}
  (hdenied : setup.config.deniedPeers.permits ip = false) {before : Option Allocation}
  {next : Allocation} (hchanged : Changed setup input fiveTuple before (some next))

include hdenied

/-- An address that the policy allows is not a denied one. -/
theorem ne_of_permits {other : IpAddr} (hpermits : setup.config.deniedPeers.permits other = true) :
    other ≠ ip := by
  rintro rfl
  exact Bool.false_ne_true (hdenied.symm.trans hpermits)

include hchanged

theorem permission_of_changed {expiry : ℕ} (hnext : next.permissions.lookup ip = some expiry) :
    ∃ allocation, before = some allocation ∧ allocation.permissions.lookup ip = some expiry := by
  cases hchanged with
  | kept => exact ⟨next, rfl, hnext⟩
  | counted length => exact ⟨_, rfl, hnext⟩
  | created hauthentic htuple => exact nomatch hnext
  | asked hasks =>
    cases hasks with
    | refreshes => exact ⟨_, rfl, hnext⟩
    | permits _ _ hpeers =>
      rw [permit, Table.lookup_foldl_insert] at hnext
      split_ifs at hnext with hmem
      · obtain ⟨peer, hpeer, hip⟩ := List.mem_map.mp hmem
        exact absurd hip (ne_of_permits hdenied (hpeers peer hpeer))
      · exact ⟨_, rfl, hnext⟩
    | binds _ _ _ _ hpermits =>
      rw [bindChannel, Table.lookup_insert_apply,
        if_neg (ne_of_permits hdenied hpermits).symm] at hnext
      exact ⟨_, rfl, hnext⟩
  | pruned htick halive =>
    rw [Allocation.prune, Table.lookup_retain] at hnext
    exact ⟨_, rfl, (Option.filter_eq_some_iff.mp hnext).1⟩

theorem channel_of_changed {number : UInt16} {binding : ChannelBinding}
    (hnext : next.channels.lookup number = some binding) (hip : binding.peer.ip = ip) :
    ∃ allocation, before = some allocation ∧
      allocation.channels.lookup number = some binding := by
  cases hchanged with
  | kept => exact ⟨next, rfl, hnext⟩
  | counted length => exact ⟨_, rfl, hnext⟩
  | created hauthentic htuple => exact nomatch hnext
  | asked hasks =>
    cases hasks with
    | refreshes | permits => exact ⟨_, rfl, hnext⟩
    | binds _ _ _ _ hpermits =>
      rw [bindChannel, Table.lookup_insert_apply] at hnext
      split_ifs at hnext
      · obtain rfl := Option.some.inj hnext
        exact absurd hip (ne_of_permits hdenied hpermits)
      · exact ⟨_, rfl, hnext⟩
  | pruned htick halive =>
    rw [Allocation.prune, Table.lookup_retain] at hnext
    exact ⟨_, rfl, (Option.filter_eq_some_iff.mp hnext).1⟩

end Denied

/-- What the policy denies is refused on every path. -/
theorem refuses_of_denied {setup : Setup} {ip : IpAddr}
    (hdenied : setup.config.deniedPeers.permits ip = false) (manager : AllocationManager)
    (input : Surroundings × Message) : Refuses setup manager input ip where
  permission fiveTuple _ _ hnext hpermission :=
    permission_of_changed hdenied (hnext ▸ changed setup manager input fiveTuple) hpermission
  channel fiveTuple _ _ _ hnext hbinding hip :=
    channel_of_changed hdenied (hnext ▸ changed setup manager input fiveTuple) hbinding hip
  route _ hmem := ne_of_permits hdenied (permits_of_installed hmem)
  send _ _ _ hmem := by
    obtain ⟨_, _, _, -, hbrings⟩ := sent_of_mem hmem
    cases hbrings with
    | indication _ _ hpermits => exact ne_of_permits hdenied hpermits
    | channelData _ _ _ hpermits => exact ne_of_permits hdenied hpermits
  deliver _ _ _ hmessage hip := by
    rw [List.eq_nil_iff_forall_not_mem]
    intro effect hmem
    obtain ⟨_, _, _, -, -, -, hpermits, -⟩ := delivered_of_mem hmessage hmem
    exact ne_of_permits hdenied hpermits hip

/-! ### Mapped addresses -/

/-- An allocation with a permission for an address. -/
def permittedAllocation (ip : IpAddr) : Allocation where
  transport := .udp sampleTuple.client
  relay := ⟨7, .v4 0xC633640A 50000⟩
  username := text "1"
  expiresAt := 600
  permissions := (∅ : Table IpAddr ℕ).insert ip 300
  channels := ∅
  peerToChannel := ∅
  lastAllocate := none
  bytesRelayed := 0

/-- A server with that allocation. -/
def permittedManager (ip : IpAddr) : AllocationManager where
  allocations := (∅ : Table FiveTuple Allocation).insert sampleTuple (permittedAllocation ip)
  relayIndex := (∅ : Table EndpointId FiveTuple).insert 7 sampleTuple
  quota := (∅ : Table Bytes ℕ).insert (text "1") 1
  indicationCounter := 0

/-- An address that the policy allows is served. -/
theorem not_refuses_of_permits {setup : Setup} {peer : SocketAddr}
    (hpermits : setup.config.deniedPeers.permits peer.ip = true) :
    ¬ Refuses setup (permittedManager peer.ip) (sampleEnv 0 none, .relayInbound 7 peer [])
      peer.ip := by
  intro hrefuses
  have hindex : (permittedManager peer.ip).relayIndex.lookup 7 = some sampleTuple :=
    AList.lookup_insert _
  have hsome : (permittedManager peer.ip).allocations.lookup sampleTuple =
      some (permittedAllocation peer.ip) := AList.lookup_insert _
  have hpermission : hasPermission (permittedAllocation peer.ip) peer.ip 0 = true :=
    (Option.any_eq_true _ _).mpr ⟨300, AList.lookup_insert _, rfl⟩
  -- an empty payload is within every budget
  have hbudget : withinBudget setup (permittedAllocation peer.ip) 0 = true := by
    unfold withinBudget
    cases setup.config.maxBytesPerAllocation with
    | none => rfl
    | some cap => exact decide_eq_true (Nat.zero_le cap)
  have hnothing := hrefuses.deliver 7 peer [] rfl rfl
  obtain ⟨passed, hpassed, -⟩ := handle_of_brings hsome (@Brings.inbound setup sampleTuple
    (permittedManager peer.ip) (sampleEnv 0 none, .relayInbound 7 peer [])
    (permittedAllocation peer.ip) [] 7 peer [] rfl hindex hpermission hpermits hbudget)
  rw [hpassed] at hnothing
  exact nomatch hnothing

/-- When the mapped form of a denied address is denied. In every state and for every message the
IPv4-mapped form of each IPv4 address that the policy denies is refused on every path, if and only
if the policy's list has all the mapped forms. -/
theorem mapped_refused_iff (setup : Setup) :
    (∀ ip, setup.config.deniedPeers.permits (.v4 ip) = false →
      ∀ manager input, Refuses setup manager input (.v6 (mapped ip))) ↔
      ∀ ip, setup.config.deniedPeers.permits (.v4 ip) = false →
        IpAddr.v6 (mapped ip) ∈ setup.config.deniedPeers.denied := by
  refine forall₂_congr fun ip hdenied ↦ ⟨fun hrefuses ↦ ?_, fun hlisted manager input ↦ ?_⟩
  · by_contra hunlisted
    have hpermits : setup.config.deniedPeers.permits (.v6 (mapped ip)) = true := by
      rw [permits_mapped, Bool.not_eq_true', ← Bool.not_eq_true, List.contains_iff_mem]
      exact hunlisted
    exact @not_refuses_of_permits setup (.v6 (mapped ip) 0 0 0) hpermits (hrefuses _ _)
  · refine refuses_of_denied ?_ manager input
    rw [permits_mapped, List.contains_iff_mem.mpr hlisted]
    rfl

/-- A user allocates and binds a channel to `[::ffff:127.0.0.1]:80`. -/
def mappedRun : List (Surroundings × Message) :=
  [(sampleEnv 0 (some ⟨7, .v4 0xC633640A 50000⟩), sampleAllocate (text "1") 600),
    (sampleEnv 5 none, sampleBind (text "1") 0x4000 (.v6 (mapped 0x7F000001) 80 0 0))]

/-- The default policy denies `127.0.0.1`. Under the mapped form it gets a permission and a channel,
and payloads are relayed to it and from it. -/
theorem mapped_loopback_served :
    let manager := final (handle sampleSetup) new mappedRun
    sampleSetup.config.deniedPeers.permits (.v4 0x7F000001) = false ∧
      (manager.allocations.lookup sampleTuple).bind
        (·.permissions.lookup (.v6 (mapped 0x7F000001))) = some 305 ∧
      (manager.allocations.lookup sampleTuple).bind (·.channels.lookup 0x4000) =
        some ⟨.v6 (mapped 0x7F000001) 80 0 0, 605⟩ ∧
      (handle sampleSetup manager (sampleEnv 10 none, .client sampleTuple
        (.udp sampleTuple.client) (encodeChannelData 0x4000 [1] false))).1 =
          [.send 7 (.v6 (mapped 0x7F000001) 80 0 0) [1]] ∧
      (handle sampleSetup manager (sampleEnv 10 none,
        .relayInbound 7 (.v6 (mapped 0x7F000001) 80 0 0) [2])).1 =
          [.reply (.udp sampleTuple.client) (encodeChannelData 0x4000 [2] false)] := by
  decide +kernel

end AllocationManager

end SiphonRtp.Turn
