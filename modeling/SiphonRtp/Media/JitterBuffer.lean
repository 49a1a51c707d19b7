import Mathlib.Algebra.GroupWithZero.Nat
import Mathlib.Algebra.Order.BigOperators.Group.List
import Mathlib.Algebra.Order.Group.Nat
import SiphonRtp.Machine.Table

/-!
# The jitter buffer

The buffer holds RTP payloads by their sixteen-bit sequence numbers and gives them out in the order
of the numbers, one for each `pop`. A number is told late by its distance from the playout cursor
`nextOut`, and beyond `maxDepth` packets the cursor moves on and drops what it passes.
-/

set_option autoImplicit false

namespace SiphonRtp.Media

open Machine

/-- What one `pop` yields. -/
inductive JitterOutput
  | packet (payload : List UInt8)
  | conceal
  | starved
deriving DecidableEq

/-- What `push` did with a packet. -/
inductive PushResult
  | accepted
  | duplicate
  | late
deriving DecidableEq

structure JitterStats where
  duplicates : ℕ := 0
  lates : ℕ := 0
  losses : ℕ := 0
deriving DecidableEq

structure JitterBuffer where
  targetDepth : ℕ
  maxDepth : ℕ
  buffer : Table UInt16 (List UInt8)
  nextOut : Option UInt16
  primed : Bool
  stats : JitterStats

namespace JitterBuffer

/-- A buffer that primes at `targetDepth` packets and holds at most `maxDepth`, which is raised to
at least `targetDepth`. -/
def new (targetDepth maxDepth : ℕ) : JitterBuffer where
  targetDepth := max targetDepth 1
  maxDepth := max maxDepth (max targetDepth 1)
  buffer := ∅
  nextOut := none
  primed := false
  stats := {}

/-- Number of packets currently buffered. -/
def buffered (jitter : JitterBuffer) : ℕ :=
  jitter.buffer.entries.length

/-- One round of `enforce_cap`: the slot at the cursor is dropped. -/
def dropSlot (jitter : JitterBuffer) (base : UInt16) : JitterBuffer :=
  { jitter with
    buffer := jitter.buffer.erase base
    nextOut := some (base + 1)
    stats := { jitter.stats with losses := jitter.stats.losses + 1 } }

/-- How far the cursor is from the buffered packets, all together. -/
def ahead (jitter : JitterBuffer) : ℕ :=
  match jitter.nextOut with
  | some base => (jitter.buffer.entries.map fun entry ↦ (entry.1 - base).toNat + 1).sum
  | none => 0

/-- A slot further, a packet at another slot is one nearer. -/
theorem toNat_sub_succ {key base : UInt16} (hne : key ≠ base) :
    (key - (base + 1)).toNat + 1 = (key - base).toNat := by
  have hkey := key.toNat_lt
  have hbase := base.toNat_lt
  have hdiffer : key.toNat ≠ base.toNat := fun heq ↦ hne (UInt16.toNat_inj.mp heq)
  rw [UInt16.toNat_sub, UInt16.toNat_sub]
  change (2 ^ 16 - (base.toNat + 1) % 2 ^ 16 + key.toNat) % 2 ^ 16 + 1 = _
  omega

theorem ahead_dropSlot {jitter : JitterBuffer} {base : UInt16} (hnext : jitter.nextOut = some base)
    (hfull : 0 < jitter.buffered) : (jitter.dropSlot base).ahead < jitter.ahead := by
  unfold ahead
  rw [hnext]
  change ((jitter.buffer.erase base).entries.map
    fun entry ↦ (entry.1 - (base + 1)).toNat + 1).sum < _
  have hnear : (jitter.buffer.erase base).entries.map
      (fun entry ↦ (entry.1 - (base + 1)).toNat + 1) =
      (jitter.buffer.erase base).entries.map fun entry ↦ (entry.1 - base).toNat := by
    refine List.map_congr_left fun entry hentry ↦ toNat_sub_succ ?_
    rintro rfl
    exact List.notMem_keys_kerase _ jitter.buffer.nodupKeys (List.mem_keys_of_mem hentry)
  have hfewer : ((jitter.buffer.erase base).entries.map fun entry ↦ (entry.1 - base).toNat).sum ≤
      (jitter.buffer.entries.map fun entry ↦ (entry.1 - base).toNat).sum :=
    ((List.kerase_sublist base jitter.buffer.entries).map _).sum_le_sum fun _ _ ↦ Nat.zero_le _
  have hmore : (jitter.buffer.entries.map fun entry ↦ (entry.1 - base).toNat + 1).sum =
      (jitter.buffer.entries.map fun entry ↦ (entry.1 - base).toNat).sum + jitter.buffered := by
    simp [buffered]
  dsimp only
  rw [hnear]
  omega

/-- Slots are dropped until the occupancy is within `maxDepth`. -/
def enforceCap (jitter : JitterBuffer) : JitterBuffer :=
  if _hfull : jitter.maxDepth < jitter.buffered then
    match _hnext : jitter.nextOut with
    | some base => (jitter.dropSlot base).enforceCap
    | none => jitter
  else jitter
termination_by jitter.ahead
decreasing_by exact ahead_dropSlot _hnext (Nat.zero_lt_of_lt _hfull)

/-- `buffer.insert`. -/
def store (jitter : JitterBuffer) (sequence : UInt16) (payload : List UInt8) : JitterBuffer :=
  { jitter with buffer := jitter.buffer.insert sequence payload }

/-- Offer a packet to the buffer. -/
def push (jitter : JitterBuffer) (sequence : UInt16) (payload : List UInt8) :
    PushResult × JitterBuffer :=
  match jitter.nextOut with
  | none =>
    (.accepted, { jitter.store sequence payload with nextOut := some sequence })
  | some base =>
    if 0x8000 ≤ (sequence - base).toNat then
      (.late,
        { jitter with stats := { jitter.stats with lates := jitter.stats.lates + 1 } })
    else if (jitter.buffer.lookup sequence).isSome then
      (.duplicate,
        { jitter with stats := { jitter.stats with duplicates := jitter.stats.duplicates + 1 } })
    else (.accepted, (jitter.store sequence payload).enforceCap)

/-- Emit the next frame for this tick. -/
def pop (jitter : JitterBuffer) : JitterOutput × JitterBuffer :=
  match jitter.nextOut with
  | none => (.starved, jitter)
  | some base =>
    if !jitter.primed && decide (jitter.buffered < jitter.targetDepth) then (.starved, jitter)
    else
      match jitter.buffer.lookup base with
      | some payload =>
        (.packet payload,
          { jitter with
            primed := true, buffer := jitter.buffer.erase base, nextOut := some (base + 1) })
      | none =>
        if jitter.buffered = 0 then (.starved, { jitter with primed := false })
        else
          (.conceal,
            { jitter with
              primed := true
              nextOut := some (base + 1)
              stats := { jitter.stats with losses := jitter.stats.losses + 1 } })

/-! ### Losses -/

theorem losses_le_enforceCap (jitter : JitterBuffer) :
    jitter.stats.losses ≤ jitter.enforceCap.stats.losses := by
  induction hahead : jitter.ahead using Nat.strong_induction_on generalizing jitter with
  | _ ahead ih =>
    unfold enforceCap
    split
    next hfull =>
      split
      next base hnext =>
        have hless := ahead_dropSlot hnext (Nat.zero_lt_of_lt hfull)
        exact Nat.le_trans (Nat.le_succ _) (ih _ (hahead ▸ hless) _ rfl)
      next => exact le_rfl
    next => exact le_rfl

theorem losses_le_push (jitter : JitterBuffer) (sequence : UInt16) (payload : List UInt8) :
    jitter.stats.losses ≤ (jitter.push sequence payload).2.stats.losses := by
  unfold push
  split
  · exact le_rfl
  split_ifs
  · exact le_rfl
  · exact le_rfl
  · exact losses_le_enforceCap (jitter.store sequence payload)

theorem losses_le_pop (jitter : JitterBuffer) :
    jitter.stats.losses ≤ jitter.pop.2.stats.losses := by
  unfold pop
  split
  · exact le_rfl
  split
  · exact le_rfl
  split
  · exact le_rfl
  split
  · exact le_rfl
  · exact Nat.le_succ _

end JitterBuffer

end SiphonRtp.Media
