import SiphonRtp.Stun.Client
import Mathlib.Data.List.Sort

/-!
# Candidates and the checklist

`siphon-rtp-ice/src/candidate.rs`, as far as the agent reads it, and `checklist.rs`: candidates with
their priorities, candidate pairs, and the list of pairs that is the agent's work queue. Pairs are
named by their index in the list. The list only grows at its end, and what an agent changes in a
pair is its state, its nomination and its priority, never its two candidates.

`form` pairs, prunes, orders and freezes. `nextWaiting` and `valid` pick by priority
(`stateAt_of_nextWaiting`, `mem_valid_iff`).
-/

set_option autoImplicit false

namespace SiphonRtp.Ice

open Machine Datapath Stun

/-! ### Candidates -/

/-- How a candidate was learned. -/
inductive CandidateKind
  | host
  | serverReflexive
  | peerReflexive
  | relayed
deriving DecidableEq

/-- The recommended type preference. -/
def CandidateKind.typePreference : CandidateKind → ℕ
  | .host => 126
  | .peerReflexive => 110
  | .serverReflexive => 100
  | .relayed => 0

/-- The transport of a candidate, any token other than `UDP` preserved. -/
inductive Transport
  | udp
  | other (token : Bytes)
deriving DecidableEq

def Transport.isSupported : Transport → Bool
  | .udp => true
  | .other _ => false

/-- The priority formula, its arguments clamped to what it allows. -/
def priority (typePreference localPreference component : ℕ) : UInt32 :=
  UInt32.ofNat ((min typePreference 126) <<< 24 ||| localPreference <<< 8 |||
    (256 - min (max component 1) 256))

/-- One ICE candidate. -/
structure Candidate where
  foundation : Bytes
  component : UInt16
  transport : Transport
  priority : UInt32
  address : SocketAddr
  kind : CandidateKind
  /-- The base of a reflexive candidate, the mapped address of a relayed one. -/
  related : Option SocketAddr
deriving DecidableEq

/-- `Candidate::new`, of transport UDP. -/
def Candidate.new (foundation : Bytes) (component : UInt16) (address : SocketAddr)
    (kind : CandidateKind) (localPreference : ℕ) : Candidate where
  foundation := foundation
  component := component
  transport := .udp
  priority := Ice.priority kind.typePreference localPreference component.toNat
  address := address
  kind := kind
  related := none

/-- Whether a socket address is an IPv4 one. -/
def isIpv4 : SocketAddr → Bool
  | .v4 _ _ => true
  | .v6 _ _ _ _ => false

/-- Whether two candidates may be paired: one component, one address family, transports that are
checked. -/
def compatible (localCandidate remoteCandidate : Candidate) : Bool :=
  localCandidate.component == remoteCandidate.component &&
    (isIpv4 localCandidate.address == isIpv4 remoteCandidate.address) &&
    localCandidate.transport.isSupported && remoteCandidate.transport.isSupported

/-! ### Pairs -/

/-- Where a pair is in its life. -/
inductive PairState
  | frozen
  | waiting
  | inProgress
  | succeeded
  | failed
deriving DecidableEq

/-- A local and a remote candidate, with the sort key of the checklist. -/
structure CandidatePair where
  localCandidate : Candidate
  remoteCandidate : Candidate
  priority : ℕ
  state : PairState
  nominated : Bool
deriving DecidableEq

/-- `pair_priority`: the formula over the priorities of the controlling and the controlled side, in
saturating 64-bit arithmetic. -/
def pairPriority (localPriority remotePriority : UInt32) (controlling : Bool) : ℕ :=
  let g := if controlling then localPriority.toNat else remotePriority.toNat
  let d := if controlling then remotePriority.toNat else localPriority.toNat
  min (min (2 ^ 32 * min g d + 2 * max g d) u64Max + if d < g then 1 else 0) u64Max

namespace CandidatePair

/-- `CandidatePair::new`. -/
def new (localCandidate remoteCandidate : Candidate) (controlling : Bool) : CandidatePair where
  localCandidate := localCandidate
  remoteCandidate := remoteCandidate
  priority := pairPriority localCandidate.priority remoteCandidate.priority controlling
  state := .frozen
  nominated := false

def foundation (pair : CandidatePair) : Bytes × Bytes :=
  (pair.localCandidate.foundation, pair.remoteCandidate.foundation)

def component (pair : CandidatePair) : UInt16 := pair.localCandidate.component

/-- The two candidates of a pair. -/
def candidates (pair : CandidatePair) : Candidate × Candidate :=
  (pair.localCandidate, pair.remoteCandidate)

/-- The pair priced for the other role. -/
def reprice (controlling : Bool) (pair : CandidatePair) : CandidatePair :=
  { pair with
    priority :=
      pairPriority pair.localCandidate.priority pair.remoteCandidate.priority controlling }

end CandidatePair

/-! ### The checklist -/

/-- The pairs of one media stream. -/
abbrev Checklist := List CandidatePair

/-- The last of the elements with the largest key, as `max_by_key` has it. -/
def lastMaxBy {α : Type} (key : α → ℕ) : List α → Option α
  | [] => none
  | first :: rest =>
    match lastMaxBy key rest with
    | none => some first
    | some best => if key best < key first then some first else some best

namespace Checklist

/-- Pairs in the order of `form`, every local candidate with every compatible remote one. -/
def pairings (localCandidates remoteCandidates : List Candidate) (controlling : Bool) :
    Checklist :=
  localCandidates.flatMap fun localCandidate ↦
    (remoteCandidates.filter (compatible localCandidate)).map fun remoteCandidate ↦
      CandidatePair.new localCandidate remoteCandidate controlling

/-- Stable, highest priority first. -/
def sort (checklist : Checklist) : Checklist :=
  checklist.insertionSort fun first second ↦ second.priority ≤ first.priority

/-- A server-reflexive local candidate is checked from its base. -/
def toBase (pair : CandidatePair) : CandidatePair :=
  match pair.localCandidate.kind, pair.localCandidate.related with
  | .serverReflexive, some base =>
    { pair with localCandidate := { pair.localCandidate with address := base } }
  | _, _ => pair

/-- The first pair for each two addresses. -/
def retainFirst (seen : List (SocketAddr × SocketAddr)) : Checklist → Checklist
  | [] => []
  | pair :: rest =>
    if (pair.localCandidate.address, pair.remoteCandidate.address) ∈ seen then
      retainFirst seen rest
    else
      pair :: retainFirst
        (seen ++ [(pair.localCandidate.address, pair.remoteCandidate.address)]) rest

def prune (checklist : Checklist) : Checklist := retainFirst [] (sort (checklist.map toBase))

/-- Write the state of one pair. -/
def setState (checklist : Checklist) (index : ℕ) (state : PairState) : Checklist :=
  checklist.modify index fun pair ↦ { pair with state := state }

/-- Mark one pair nominated. -/
def nominate (checklist : Checklist) (index : ℕ) : Checklist :=
  checklist.modify index fun pair ↦ { pair with nominated := true }

/-- The first pair of each foundation, in the given order, waits. -/
def startFirst (started : List (Bytes × Bytes)) (checklist : Checklist) : List ℕ → Checklist
  | [] => checklist
  | index :: rest =>
    match checklist[index]? with
    | none => startFirst started checklist rest
    | some pair =>
      if pair.foundation ∈ started then startFirst started checklist rest
      else startFirst (started ++ [pair.foundation]) (checklist.setState index .waiting) rest

/-- `freeze_initial`: lowest component first, and by priority within one. -/
def freezeInitial (checklist : Checklist) : Checklist :=
  startFirst [] checklist ((List.range checklist.length).insertionSort fun first second ↦
    (checklist[first]?.map fun pair ↦ pair.component.toNat).getD 0 ≤
      (checklist[second]?.map fun pair ↦ pair.component.toNat).getD 0)

/-- `Checklist::form`. -/
def form (localCandidates remoteCandidates : List Candidate) (controlling : Bool) : Checklist :=
  freezeInitial (sort (prune (pairings localCandidates remoteCandidates controlling)))

/-- The state of a pair, if there is one at an index. -/
def stateAt (checklist : Checklist) (index : ℕ) : Option PairState :=
  checklist[index]?.map CandidatePair.state

/-- The priority of a pair. -/
def priorityAt (checklist : Checklist) (index : ℕ) : ℕ :=
  (checklist[index]?.map CandidatePair.priority).getD 0

/-- The indices of the pairs in a state, in the order of the list. -/
def indicesIn (checklist : Checklist) (state : PairState) : List ℕ :=
  (List.range checklist.length).filter fun index ↦ checklist.stateAt index = some state

/-- The highest-priority waiting pair. -/
def nextWaiting (checklist : Checklist) : Option ℕ :=
  lastMaxBy checklist.priorityAt (checklist.indicesIn .waiting)

/-- `find`, by the two transport addresses. -/
def find (checklist : Checklist) (localAddress remoteAddress : SocketAddr) : Option ℕ :=
  checklist.findIdx? fun pair ↦
    pair.localCandidate.address == localAddress && pair.remoteCandidate.address == remoteAddress

/-- The frozen pairs of a foundation wait. -/
def unfreezeFoundation (checklist : Checklist) (foundation : Bytes × Bytes) : Checklist :=
  checklist.map fun pair ↦
    if pair.state = .frozen ∧ pair.foundation = foundation then { pair with state := .waiting }
    else pair

/-- The valid list, highest priority first. -/
def valid (checklist : Checklist) : List ℕ :=
  (checklist.indicesIn .succeeded).insertionSort fun first second ↦
    checklist.priorityAt second ≤ checklist.priorityAt first

/-- Whether every pair has settled. -/
def isExhausted (checklist : Checklist) : Bool :=
  checklist.all fun pair ↦ pair.state == .succeeded || pair.state == .failed

/-! ### What is read back -/

section ReadBack

variable (checklist : Checklist) (index other : ℕ) (state : PairState)

theorem stateAt_setState :
    (checklist.setState index state).stateAt other =
      if index = other then (checklist.stateAt other).map fun _ ↦ state
      else checklist.stateAt other := by
  unfold setState stateAt
  rw [List.getElem?_modify]
  cases checklist[other]? with
  | none => simp
  | some pair =>
    by_cases hindex : index = other
    · simp [hindex]
    · simp [hindex]

@[simp] theorem stateAt_nominate :
    (checklist.nominate index).stateAt other = checklist.stateAt other := by
  unfold nominate stateAt
  rw [List.getElem?_modify]
  cases checklist[other]? with
  | none => rfl
  | some pair =>
    by_cases hindex : index = other
    · simp [hindex]
    · simp [hindex]

@[simp] theorem stateAt_reprice (controlling : Bool) :
    Checklist.stateAt (checklist.map (CandidatePair.reprice controlling)) index =
      checklist.stateAt index := by
  unfold stateAt
  rw [List.getElem?_map, Option.map_map]
  rfl

/-- A pair at the end of the list. -/
theorem stateAt_concat (pair : CandidatePair) :
    Checklist.stateAt (checklist ++ [pair]) index =
      if index = checklist.length then some pair.state else checklist.stateAt index := by
  unfold stateAt
  by_cases hindex : index = checklist.length
  · subst hindex
    simp
  · rw [if_neg hindex, List.getElem?_append]
    by_cases hlt : index < checklist.length
    · rw [if_pos hlt]
    · rw [if_neg hlt, List.getElem?_eq_none (by simp; omega), List.getElem?_eq_none (by omega)]

theorem stateAt_isSome_iff : (checklist.stateAt index).isSome ↔ index < checklist.length := by
  unfold stateAt
  rw [Option.isSome_map, isSome_getElem?]

theorem mem_indicesIn : index ∈ checklist.indicesIn state ↔
    checklist.stateAt index = some state := by
  rw [indicesIn, List.mem_filter, List.mem_range, decide_eq_true_eq]
  constructor
  · exact fun h ↦ h.2
  · intro hstate
    refine ⟨?_, hstate⟩
    rw [← stateAt_isSome_iff, hstate]
    rfl

theorem mem_valid_iff : index ∈ checklist.valid ↔ checklist.stateAt index = some .succeeded := by
  rw [valid, List.mem_insertionSort, mem_indicesIn]

end ReadBack

end Checklist

theorem lastMaxBy_mem {α : Type} {key : α → ℕ} {list : List α} {best : α}
    (hbest : lastMaxBy key list = some best) : best ∈ list := by
  induction list generalizing best with
  | nil => exact nomatch hbest
  | cons first rest ih =>
    unfold lastMaxBy at hbest
    cases hrest : lastMaxBy key rest with
    | none =>
      rw [hrest] at hbest
      cases hbest
      exact List.mem_cons_self
    | some other =>
      rw [hrest] at hbest
      dsimp only at hbest
      split_ifs at hbest
      · cases hbest
        exact List.mem_cons_self
      · cases hbest
        exact List.mem_cons_of_mem first (ih hrest)

namespace Checklist

theorem stateAt_of_nextWaiting {checklist : Checklist} {index : ℕ}
    (hnext : checklist.nextWaiting = some index) :
    checklist.stateAt index = some .waiting :=
  (mem_indicesIn checklist index .waiting).mp (lastMaxBy_mem hnext)

/-! ### The list as it is formed -/

theorem retainFirst_subset (seen : List (SocketAddr × SocketAddr)) (checklist : Checklist) :
    ∀ pair ∈ retainFirst seen checklist, pair ∈ checklist := by
  induction checklist generalizing seen with
  | nil => exact fun _ hpair ↦ hpair
  | cons first rest ih =>
    unfold retainFirst
    split_ifs
    · exact fun pair hpair ↦ List.mem_cons_of_mem first (ih seen pair hpair)
    · intro pair hpair
      rcases List.mem_cons.mp hpair with rfl | hpair
      · exact List.mem_cons_self
      · exact List.mem_cons_of_mem first (ih _ pair hpair)

theorem state_toBase (pair : CandidatePair) : (toBase pair).state = pair.state := by
  unfold toBase
  split
  · rfl
  · rfl

/-- A pair that is started waits; the others are as they were. -/
theorem stateAt_startFirst (started : List (Bytes × Bytes)) (checklist : Checklist)
    (order : List ℕ) {index : ℕ} {state : PairState}
    (hstate : (startFirst started checklist order).stateAt index = some state) :
    state = .waiting ∨ checklist.stateAt index = some state := by
  induction order generalizing started checklist with
  | nil => exact Or.inr hstate
  | cons first rest ih =>
    unfold startFirst at hstate
    split at hstate
    · exact ih started checklist hstate
    · split_ifs at hstate
      · exact ih started checklist hstate
      · rcases ih _ _ hstate with hwaiting | hbefore
        · exact Or.inl hwaiting
        · rw [stateAt_setState] at hbefore
          split_ifs at hbefore
          · obtain ⟨_, _, rfl⟩ := Option.map_eq_some_iff.mp hbefore
            exact Or.inl rfl
          · exact Or.inr hbefore

/-- The pairs of a new list are frozen or wait. -/
theorem stateAt_form {localCandidates remoteCandidates : List Candidate} {controlling : Bool}
    {index : ℕ} {state : PairState}
    (hstate : (form localCandidates remoteCandidates controlling).stateAt index = some state) :
    state = .waiting ∨ state = .frozen := by
  rcases stateAt_startFirst _ _ _ hstate with hwaiting | hbefore
  · exact Or.inl hwaiting
  · obtain ⟨pair, hpair, rfl⟩ := Option.map_eq_some_iff.mp hbefore
    have hsorted := (List.mem_insertionSort _).mp (List.mem_of_getElem? hpair)
    have hbased := (List.mem_insertionSort _).mp (retainFirst_subset _ _ pair hsorted)
    obtain ⟨original, horiginal, rfl⟩ := List.mem_map.mp hbased
    obtain ⟨localCandidate, _, hinner⟩ := List.mem_flatMap.mp horiginal
    obtain ⟨remoteCandidate, _, rfl⟩ := List.mem_map.mp hinner
    rw [state_toBase]
    exact Or.inr rfl

end Checklist

end SiphonRtp.Ice
