import SiphonRtp.Ice.Frames
import Mathlib.Data.List.Perm.Basic

/-!
# Trickled candidates and offered ones

`Checklist::form` pairs all candidates it is given, checks a server-reflexive local candidate from
its base, and prunes pairs with the same two addresses. `add_remote_candidate` pairs one more remote
candidate with every local one, and leaves out a pair whose two addresses are in the list.

Both are given by the addresses they pair (`Pairs`): `mem_addresses_form` for the first, with every
local candidate under its base, and `mem_addresses_trickled` for the second, with every local
candidate under its own address. `trickled_eq_offered_iff` compares them.
-/

set_option autoImplicit false

namespace SiphonRtp.Ice

open Machine Datapath

/-- The address a local candidate is checked from, once a list is formed. -/
def Candidate.base (candidate : Candidate) : SocketAddr :=
  match candidate.kind, candidate.related with
  | .serverReflexive, some base => base
  | _, _ => candidate.address

/-- Two addresses are those of a local and a remote candidate that may be paired, the local one
taken under its own address or under its base. -/
def Pairs (address : Candidate → SocketAddr) (localCandidates remoteCandidates : List Candidate)
    (pair : SocketAddr × SocketAddr) : Prop :=
  ∃ localCandidate ∈ localCandidates, ∃ remoteCandidate ∈ remoteCandidates,
    compatible localCandidate remoteCandidate = true ∧
      (address localCandidate, remoteCandidate.address) = pair

instance (address : Candidate → SocketAddr) (localCandidates remoteCandidates : List Candidate) :
    DecidablePred (Pairs address localCandidates remoteCandidates) := fun _ ↦
  inferInstanceAs (Decidable (∃ _ ∈ _, ∃ _ ∈ _, _ ∧ _))

namespace Checklist

/-- The two addresses of each pair. -/
def addresses (checklist : Checklist) : List (SocketAddr × SocketAddr) :=
  checklist.map fun pair ↦ (pair.localCandidate.address, pair.remoteCandidate.address)

/-! ### A list that is formed -/

theorem addresses_eq (checklist : Checklist) :
    checklist.addresses = checklist.candidates.map fun pair ↦ (pair.1.address, pair.2.address) := by
  unfold addresses candidates
  rw [List.map_map]
  rfl

theorem candidates_startFirst (started : List (Bytes × Bytes)) (checklist : Checklist)
    (order : List ℕ) : (startFirst started checklist order).candidates = checklist.candidates :=
  map_startFirst (fun _ _ ↦ rfl) checklist started order

theorem mem_addresses_sort (checklist : Checklist) (pair : SocketAddr × SocketAddr) :
    pair ∈ (sort checklist).addresses ↔ pair ∈ checklist.addresses :=
  ((List.perm_insertionSort _ checklist).map _).mem_iff

/-- Pruning keeps one pair for each two addresses. -/
theorem mem_addresses_retainFirst (seen : List (SocketAddr × SocketAddr)) (checklist : Checklist)
    (pair : SocketAddr × SocketAddr) (hseen : pair ∉ seen) :
    pair ∈ (retainFirst seen checklist).addresses ↔ pair ∈ checklist.addresses := by
  induction checklist generalizing seen with
  | nil => exact Iff.rfl
  | cons first rest ih =>
    unfold retainFirst
    split_ifs with hfirst
    · rw [ih seen hseen]
      refine ⟨List.mem_cons_of_mem _, fun hmem ↦ ?_⟩
      rcases List.mem_cons.mp hmem with rfl | hrest
      · exact absurd hfirst hseen
      · exact hrest
    · by_cases hpair : pair = (first.localCandidate.address, first.remoteCandidate.address)
      · rw [hpair]
        exact iff_of_true List.mem_cons_self List.mem_cons_self
      · have hlater := ih (seen ++ [(first.localCandidate.address,
          first.remoteCandidate.address)]) (by simp [hseen, hpair])
        constructor
        · intro hmem
          exact List.mem_cons_of_mem _ (hlater.mp ((List.mem_cons.mp hmem).resolve_left hpair))
        · intro hmem
          exact List.mem_cons_of_mem _ (hlater.mpr ((List.mem_cons.mp hmem).resolve_left hpair))

theorem toBase_new (localCandidate remoteCandidate : Candidate) (controlling : Bool) :
    ((toBase (CandidatePair.new localCandidate remoteCandidate controlling)).localCandidate.address,
      (toBase (CandidatePair.new localCandidate remoteCandidate
        controlling)).remoteCandidate.address) =
      (localCandidate.base, remoteCandidate.address) := by
  obtain ⟨_, _, _, _, _, kind, related⟩ := localCandidate
  cases kind <;> cases related <;> rfl

/-- A list that is formed pairs the bases of the local candidates. -/
theorem mem_addresses_form (localCandidates remoteCandidates : List Candidate) (controlling : Bool)
    (pair : SocketAddr × SocketAddr) :
    pair ∈ (form localCandidates remoteCandidates controlling).addresses ↔
      Pairs Candidate.base localCandidates remoteCandidates pair := by
  have hfrozen : (form localCandidates remoteCandidates controlling).addresses =
      (sort (prune (pairings localCandidates remoteCandidates controlling))).addresses := by
    rw [addresses_eq, addresses_eq, form, freezeInitial, candidates_startFirst]
  rw [hfrozen, mem_addresses_sort, prune, mem_addresses_retainFirst _ _ _ List.not_mem_nil,
    mem_addresses_sort, addresses, List.map_map]
  constructor
  · intro hmem
    obtain ⟨original, horiginal, rfl⟩ := List.mem_map.mp hmem
    obtain ⟨localCandidate, hlocal, hinner⟩ := List.mem_flatMap.mp horiginal
    obtain ⟨remoteCandidate, hremote, rfl⟩ := List.mem_map.mp hinner
    obtain ⟨hmember, hcompatible⟩ := List.mem_filter.mp hremote
    exact ⟨localCandidate, hlocal, remoteCandidate, hmember, hcompatible, (toBase_new _ _ _).symm⟩
  · rintro ⟨localCandidate, hlocal, remoteCandidate, hremote, hcompatible, rfl⟩
    refine List.mem_map.mpr ⟨CandidatePair.new localCandidate remoteCandidate controlling, ?_,
      toBase_new _ _ _⟩
    exact List.mem_flatMap.mpr ⟨localCandidate, hlocal,
      List.mem_map.mpr ⟨remoteCandidate, List.mem_filter.mpr ⟨hremote, hcompatible⟩, rfl⟩⟩

theorem find_isSome_iff (checklist : Checklist) (localAddress remoteAddress : SocketAddr) :
    (checklist.find localAddress remoteAddress).isSome ↔
      (localAddress, remoteAddress) ∈ checklist.addresses := by
  rw [find, addresses]
  simp [Prod.ext_iff]

end Checklist

namespace IceAgent

/-! ### Candidates that are added -/

section Trickle

variable (remote : Candidate) (pair : SocketAddr × SocketAddr)

/-- Pairing with a local candidate adds its own address, unless it is in the list. -/
theorem mem_addresses_addPair (agent : IceAgent) (localCandidate : Candidate) :
    pair ∈ (agent.addPair remote localCandidate).checklist.addresses ↔
      pair ∈ agent.checklist.addresses ∨
        compatible localCandidate remote = true ∧
          (localCandidate.address, remote.address) = pair := by
  unfold addPair
  split
  · rename_i hskipped
    refine ⟨Or.inl, fun hpair ↦ hpair.elim id ?_⟩
    rintro ⟨hcompatible, rfl⟩
    rcases hskipped with hincompatible | hfound
    · exact nomatch hcompatible.symm.trans hincompatible
    · exact (Checklist.find_isSome_iff _ _ _).mp hfound
  · rename_i hnew
    have hcompatible : compatible localCandidate remote = true := by
      simpa using (not_or.mp hnew).1
    rw [Checklist.addresses, List.map_append, List.mem_append]
    refine or_congr_right ?_
    rw [List.map_singleton, List.mem_singleton]
    exact ⟨fun heq ↦ ⟨hcompatible, heq.symm⟩, fun heq ↦ heq.2.symm⟩

theorem localCandidates_addRemoteCandidate (agent : IceAgent) :
    (agent.addRemoteCandidate remote).config.localCandidates = agent.config.localCandidates := by
  rw [config_addRemoteCandidate]

/-- An added candidate is paired with the own addresses of the local candidates. -/
theorem mem_addresses_addRemoteCandidate (agent : IceAgent) :
    pair ∈ (agent.addRemoteCandidate remote).checklist.addresses ↔
      pair ∈ agent.checklist.addresses ∨
        Pairs Candidate.address agent.config.localCandidates [remote] pair := by
  have hfold : ∀ (candidates : List Candidate) (agent : IceAgent),
      pair ∈ (candidates.foldl (addPair remote) agent).checklist.addresses ↔
        pair ∈ agent.checklist.addresses ∨ Pairs Candidate.address candidates [remote] pair := by
    intro candidates
    induction candidates with
    | nil => exact fun agent ↦ by simp [Pairs]
    | cons first rest ih =>
      intro agent
      rw [List.foldl_cons, ih, mem_addresses_addPair, or_assoc]
      simp [Pairs]
  have hchecklist : (agent.addRemoteCandidate remote).checklist =
      (agent.config.localCandidates.foldl (addPair remote) agent).checklist := by
    unfold addRemoteCandidate
    dsimp only
    split
    · rfl
    · rfl
  rw [hchecklist]
  exact hfold agent.config.localCandidates agent

/-- Candidates that are added one by one. -/
theorem mem_addresses_trickled (later : List Candidate) (agent : IceAgent) :
    pair ∈ (later.foldl addRemoteCandidate agent).checklist.addresses ↔
      pair ∈ agent.checklist.addresses ∨
        Pairs Candidate.address agent.config.localCandidates later pair := by
  induction later generalizing agent with
  | nil => simp [Pairs]
  | cons first rest ih =>
    rw [List.foldl_cons, ih, mem_addresses_addRemoteCandidate, localCandidates_addRemoteCandidate,
      or_assoc]
    refine or_congr_right ?_
    simp only [Pairs, List.mem_cons, List.not_mem_nil, or_false, exists_eq_left,
      exists_eq_or_imp, and_or_left, exists_or]

end Trickle

/-- Candidates that trickle in, in any order and before any other call, lead to the same pairs of
addresses as candidates that are offered at once, exactly if for every local candidate and every
later remote one that may be paired, the own address of the local candidate is paired with the
remote address when all are offered, and its base is when they trickle in. Assumes: the two parts
are those of the whole. -/
theorem trickled_eq_offered_iff (config : AgentConfig) (now : ℕ)
    (initial later all : List Candidate) (hsplit : all.Perm (initial ++ later)) :
    (∀ pair, pair ∈ (later.foldl addRemoteCandidate
          (.new { config with remoteCandidates := initial } now)).checklist.addresses ↔
        pair ∈ (IceAgent.new { config with remoteCandidates := all } now).checklist.addresses) ↔
      ∀ localCandidate ∈ config.localCandidates, ∀ remote ∈ later,
        compatible localCandidate remote = true →
          Pairs Candidate.base config.localCandidates all
              (localCandidate.address, remote.address) ∧
            (Pairs Candidate.base config.localCandidates initial
                (localCandidate.base, remote.address) ∨
              Pairs Candidate.address config.localCandidates later
                (localCandidate.base, remote.address)) := by
  have htrickled : ∀ pair, pair ∈ (later.foldl addRemoteCandidate
      (.new { config with remoteCandidates := initial } now)).checklist.addresses ↔
        Pairs Candidate.base config.localCandidates initial pair ∨
          Pairs Candidate.address config.localCandidates later pair := fun pair ↦ by
    rw [mem_addresses_trickled]
    exact or_congr_left (Checklist.mem_addresses_form _ _ _ pair)
  have hoffered : ∀ pair, pair ∈ (IceAgent.new { config with remoteCandidates := all }
      now).checklist.addresses ↔ Pairs Candidate.base config.localCandidates all pair := fun pair ↦
    Checklist.mem_addresses_form _ _ _ pair
  -- what is offered at once is what is offered of each part
  have hall : ∀ pair, Pairs Candidate.base config.localCandidates all pair ↔
      Pairs Candidate.base config.localCandidates initial pair ∨
        Pairs Candidate.base config.localCandidates later pair := fun pair ↦ by
    simp only [Pairs, hsplit.mem_iff, List.mem_append, or_and_right, exists_or, and_or_left]
  simp only [htrickled, hoffered]
  constructor
  · intro hsame localCandidate hlocal remote hremote hcompatible
    constructor
    · exact (hsame _).mp (Or.inr ⟨localCandidate, hlocal, remote, hremote, hcompatible, rfl⟩)
    · refine (hsame _).mpr ((hall _).mpr (Or.inr ?_))
      exact ⟨localCandidate, hlocal, remote, hremote, hcompatible, rfl⟩
  · intro hcovered pair
    constructor
    · rintro (hinitial | ⟨localCandidate, hlocal, remote, hremote, hcompatible, rfl⟩)
      · exact (hall pair).mpr (Or.inl hinitial)
      · exact (hcovered localCandidate hlocal remote hremote hcompatible).1
    · intro hoffer
      rcases (hall pair).mp hoffer with
        hinitial | ⟨localCandidate, hlocal, remote, hremote, hcompatible, rfl⟩
      · exact Or.inl hinitial
      · exact (hcovered localCandidate hlocal remote hremote hcompatible).2

/-- A server-reflexive candidate of the sample agent. -/
def reflexiveCandidate : Candidate :=
  { Candidate.new [0x32] 1 (.v4 8 4000) .serverReflexive 65535 with related := some (.v4 1 4000) }

/-- A relayed candidate of the sample agent. -/
def relayedCandidate : Candidate :=
  { Candidate.new [0x33] 1 (.v4 7 6000) .relayed 65535 with related := some (.v4 8 4000) }

/-- A host and a relayed candidate are checked from their own addresses, and two remote candidates
may come in either way. -/
theorem trickled_eq_offered_relayed :
    List.Perm [hostCandidate (.v4 2 5000), hostCandidate (.v4 3 5000)]
        ([hostCandidate (.v4 3 5000)] ++ [hostCandidate (.v4 2 5000)]) ∧
      ∀ pair, pair ∈ ([hostCandidate (.v4 2 5000)].foldl addRemoteCandidate
          (.new { sampleConfig true 1 with
            localCandidates := [hostCandidate (.v4 1 4000), relayedCandidate]
            remoteCandidates := [hostCandidate (.v4 3 5000)] } 0)).checklist.addresses ↔
        pair ∈ (IceAgent.new { sampleConfig true 1 with
            localCandidates := [hostCandidate (.v4 1 4000), relayedCandidate]
            remoteCandidates := [hostCandidate (.v4 2 5000), hostCandidate (.v4 3 5000)] }
          0).checklist.addresses := by
  have hsplit : List.Perm [hostCandidate (.v4 2 5000), hostCandidate (.v4 3 5000)]
      ([hostCandidate (.v4 3 5000)] ++ [hostCandidate (.v4 2 5000)]) := .swap _ _ _
  refine ⟨hsplit, (trickled_eq_offered_iff { sampleConfig true 1 with
    localCandidates := [hostCandidate (.v4 1 4000), relayedCandidate] } 0
    [hostCandidate (.v4 3 5000)] [hostCandidate (.v4 2 5000)] _ hsplit).mpr (by decide)⟩

/-- A server-reflexive candidate is checked from its base when the remote candidate is offered, and
from its own address too when the remote candidate trickles in. -/
theorem trickled_reflexive_own_address :
    (.v4 8 4000, .v4 2 5000) ∈ ([hostCandidate (.v4 2 5000)].foldl addRemoteCandidate
        (.new { sampleConfig true 1 with
          localCandidates := [hostCandidate (.v4 1 4000), reflexiveCandidate]
          remoteCandidates := [] } 0)).checklist.addresses ∧
      (.v4 8 4000, .v4 2 5000) ∉ (IceAgent.new { sampleConfig true 1 with
          localCandidates := [hostCandidate (.v4 1 4000), reflexiveCandidate]
          remoteCandidates := [hostCandidate (.v4 2 5000)] } 0).checklist.addresses := by
  decide

end IceAgent

end SiphonRtp.Ice
