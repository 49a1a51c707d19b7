import SiphonRtp.Engine.Hex
import SiphonRtp.Srtp.GcmNonce
import SiphonRtp.Srtp.GcmRekey

/-!
# Protection of the floor stream

`FloorProtection` of `siphon-rtp-engine/src/floor_srtcp.rs`: the AES-GCM SRTCP context of one keyed
floor stream, next to the key set it was built from. `register` is what `CallFloors::register` of
`call_floor.rs` does with the keys and the resumed state of a leg, `checkpoint` what a snapshot
takes from it, and `prepare` the validation of a snapshot on the standby
(`engine/snapshot_floor.rs`).

The scratch buffer the plaintext is opened into, the wiping of secrets and the parts of a floor
snapshot that do not concern its keys (addresses, latch, SSRC, SDP parameters) are left out.

`Sound` collects what holds of every protection a leg can have: the key set is the one its context
holds, the send index has 31 bits, and it stands at the last value once the indices are used up.
Every call keeps it (`Sound.call`), and so does taking over from a checkpoint (`sound_of_register`).
-/

set_option autoImplicit false

namespace SiphonRtp.Engine

open Machine Srtp

/-- The SRTCP state of one keyed floor stream. -/
structure FloorProtection where
  context : SrtcpGcmContext
  /-- The key set last applied, oldest first. -/
  keys : List FloorMasterKey
deriving DecidableEq

/-- A call on the protection of a stream. -/
inductive FloorCall
  | «seal» (rtcp : Bytes)
  | «open» (wire : Bytes)
  | replaceKeys (keys : List FloorMasterKey)
deriving DecidableEq

namespace FloorProtection

variable (P : Primitives)

/-- A context over the keys, nothing for an empty set or one the SRTP layer refuses. -/
def new (keys : List FloorMasterKey) : Option FloorProtection :=
  if keys = [] then none
  else
    match SrtcpGcmContext.new P keys with
    | .error _ => none
    | .ok context => some { context, keys := SrtcpGcmContext.keptKeys keys }

/-- Replace the key set. On a refusal the held set is untouched. -/
def replaceKeys (protection : FloorProtection) (keys : List FloorMasterKey) :
    Except SrtpError Unit × FloorProtection :=
  match protection.context.replaceKeys P keys with
  | (.error error, context) => (.error error, { protection with context })
  | (.ok (), context) => (.ok (), { context, keys := SrtcpGcmContext.keptKeys keys })

/-- The next outgoing SRTCP index. -/
def sendIndex (protection : FloorProtection) : UInt32 := protection.context.sendIndex

/-- Resume after a failover: the outgoing index, and what the checkpoint had received. -/
def resume (protection : FloorProtection) (index : UInt32) (received : List (UInt32 × UInt32)) :
    FloorProtection :=
  { protection with
    context := received.foldl (fun context pair ↦ context.resumeReceived pair.1 pair.2)
      (protection.context.setSendIndex index) }

/-- The highest index received under each key. -/
def receivedIndices (protection : FloorProtection) : List (UInt32 × UInt32) :=
  protection.context.receivedIndices

/-- Verify and decrypt a packet. -/
def «open» (protection : FloorProtection) (wire : Bytes) :
    Except SrtpError Bytes × FloorProtection :=
  let (result, context) := protection.context.unprotect P wire
  (result, { protection with context })

/-- Protect a packet, encrypted, under the newest key. -/
def «seal» (protection : FloorProtection) (rtcp : Bytes) :
    Except SrtpError Bytes × FloorProtection :=
  let (result, context) := protection.context.protect P rtcp true
  (result, { protection with context })

/-- One call: what it wrote, nothing for a replacement of the keys, and the next state. -/
def call (protection : FloorProtection) : FloorCall → Except SrtpError Bytes × FloorProtection
  | .seal rtcp => protection.seal P rtcp
  | .open wire => protection.open P wire
  | .replaceKeys keys =>
    ((protection.replaceKeys P keys).1.map fun () ↦ [], (protection.replaceKeys P keys).2)

end FloorProtection

/-! ### Checkpoint and restore -/

/-- One key of a snapshot, its material in hex. -/
structure FloorKeySnapshot where
  mki : UInt32
  masterKeyHex : Bytes
  masterSaltHex : Bytes
deriving DecidableEq

/-- The highest index received under a key. -/
structure FloorReceivedSnapshot where
  mki : UInt32
  index : UInt32
deriving DecidableEq

/-- The keyed part of the snapshot of a floor stream. -/
structure FloorSnapshot where
  keys : List FloorKeySnapshot
  sendIndex : UInt32
  received : List FloorReceivedSnapshot
deriving DecidableEq

/-- What a leg resumes from a checkpoint. -/
structure FloorRestore where
  sendIndex : UInt32
  received : List (UInt32 × UInt32)
deriving DecidableEq

/-- A snapshot converted and validated. -/
structure PreparedFloor where
  snapshot : FloorSnapshot
  keys : List FloorMasterKey
  sendIndex : UInt32
deriving DecidableEq

/-- `SEND_INDEX_MARGIN`, how far past the checkpointed index a standby starts sending. -/
def sendIndexMargin : UInt32 := (1 : UInt32) <<< 16

/-- The snapshot form of a key set. -/
def keySnapshots (keys : List FloorMasterKey) : List FloorKeySnapshot :=
  keys.map fun key ↦
    { mki := key.mki
      masterKeyHex := toHex key.masterKey.toList
      masterSaltHex := toHex key.masterSalt.toList }

/-- What a snapshot is not restored for. -/
inductive RestoreFailure
  | refused (reason : String)
  /-- A key text with a character in the way of a slice. -/
  | panicked
deriving DecidableEq

/-- Decode `n` octets of secret hex, refused with the reason on another length. -/
def secretFromHex (n : ℕ) (text : Bytes) (reason : String) :
    Except RestoreFailure (Vector UInt8 n) :=
  match fromHex text with
  | .panicked => .error .panicked
  | .returned none => .error (.refused reason)
  | .returned (some octets) =>
    if hlength : octets.toArray.size = n then .ok ⟨octets.toArray, hlength⟩
    else .error (.refused reason)

/-- Decode one key of a snapshot. -/
def restoreKey (key : FloorKeySnapshot) : Except RestoreFailure FloorMasterKey := do
  let masterKey ← secretFromHex 16 key.masterKeyHex "floor key is not 16 octets of hex"
  let masterSalt ← secretFromHex 14 key.masterSaltHex "floor salt is not 14 octets of hex"
  return { mki := key.mki, masterKey, masterSalt }

def restoreKeys (keys : List FloorKeySnapshot) : Except RestoreFailure (List FloorMasterKey) :=
  keys.mapM restoreKey

/-- The first index a standby may send under, nothing when the margin leaves the 31-bit space. -/
def resumedSendIndex (checkpointed : UInt32) : Option UInt32 :=
  -- the 32-bit addition is checked
  if checkpointed.toNat + sendIndexMargin.toNat < 2 ^ 32 ∧
      checkpointed + sendIndexMargin ≤ lastIndex then
    some (checkpointed + sendIndexMargin)
  else none

/-- The refusal of a snapshot whose index leaves no room. -/
def noRoom (checkpointed : UInt32) : String :=
  "the floor stream's SRTCP index " ++ toString checkpointed.toNat ++ " leaves no room for the " ++
    toString sendIndexMargin.toNat ++ " margin that keeps the standby from reusing an index " ++
    "(RFC 7714 section 9.4)"

/-- Validate a snapshot: its keys decode, and a keyed stream has room for the margin. -/
def prepare (snapshot : FloorSnapshot) : Except RestoreFailure PreparedFloor :=
  match restoreKeys snapshot.keys with
  | .error failure => .error failure
  | .ok keys =>
    if keys = [] then .ok { snapshot, keys, sendIndex := 0 }
    else
      match resumedSendIndex snapshot.sendIndex with
      | none => .error (.refused (noRoom snapshot.sendIndex))
      | some sendIndex => .ok { snapshot, keys, sendIndex }

/-- What a snapshot takes from the protection of a stream. -/
def checkpoint (protection : FloorProtection) : FloorSnapshot where
  keys := keySnapshots protection.keys
  sendIndex := protection.sendIndex
  received := protection.receivedIndices.map fun pair ↦ { mki := pair.1, index := pair.2 }

/-- The protection of a leg that is registered with its keys, and with the state it resumes. -/
def register (P : Primitives) (keys : List FloorMasterKey) (restore : Option FloorRestore) :
    Option FloorProtection :=
  (FloorProtection.new P keys).map fun protection ↦
    match restore with
    | none => protection
    | some restore => protection.resume restore.sendIndex restore.received

/-- The protection of a restored leg. -/
def registerRestored (P : Primitives) (prepared : PreparedFloor) : Option FloorProtection :=
  register P prepared.keys (some
    { sendIndex := prepared.sendIndex
      received := prepared.snapshot.received.map fun received ↦ (received.mki, received.index) })

/-! ### The context behind the protection -/

/-- The call on the context that a call on the protection passes on. -/
def FloorCall.onContext : FloorCall → GcmCall
  | .seal rtcp => .protect rtcp true
  | .open wire => .unprotect wire
  | .replaceKeys keys => .replaceKeys keys

namespace FloorProtection

variable (P : Primitives) (protection : FloorProtection)

theorem call_context (input : FloorCall) :
    protection.context.call P input.onContext =
      ((protection.call P input).1, (protection.call P input).2.context) := by
  cases input with
  | «seal» rtcp => rfl
  | «open» wire => rfl
  | replaceKeys keys =>
    simp only [call, replaceKeys, FloorCall.onContext, SrtcpGcmContext.call]
    rcases protection.context.replaceKeys_cases P keys with ⟨_, -, heq⟩ | ⟨-, heq⟩
    · rw [heq]
    · rw [heq]

/-- A run of calls is a run of its context. -/
theorem final_context (calls : List FloorCall) :
    final (SrtcpGcmContext.call P) protection.context (calls.map FloorCall.onContext) =
      (final (call P) protection calls).context :=
  final_map_of_projection FloorProtection.context FloorCall.onContext
    (fun state input ↦ call_context P state input) protection calls

theorem outputs_context (calls : List FloorCall) :
    outputs (SrtcpGcmContext.call P) protection.context (calls.map FloorCall.onContext) =
      outputs (call P) protection calls :=
  outputs_map_of_projection FloorProtection.context FloorCall.onContext
    (fun state input ↦ call_context P state input) protection calls

theorem keys_call (input : FloorCall) :
    (protection.call P input).2.keys = input.onContext.installs protection.keys := by
  cases input with
  | «seal» rtcp => rfl
  | «open» wire => rfl
  | replaceKeys keys =>
    simp only [call, replaceKeys, FloorCall.onContext, GcmCall.installs]
    rcases protection.context.replaceKeys_cases P keys with ⟨_, hcheck, heq⟩ | ⟨hcheck, heq⟩
    · rw [heq, hcheck]
      rfl
    · rw [heq, hcheck]
      rfl

/-- A failed call leaves the protection alone. -/
theorem call_of_error (input : FloorCall) {error : SrtpError}
    (herror : (protection.call P input).1 = .error error) :
    (protection.call P input).2 = protection := by
  have hcontext := call_context P protection input
  have hfailed : (protection.context.call P input.onContext).1 = .error error := by
    rw [hcontext]
    exact herror
  have hsame := protection.context.call_of_error P input.onContext hfailed
  rw [hcontext] at hsame
  have hkeys : (protection.call P input).2.keys = protection.keys := by
    rw [keys_call]
    cases input with
    | «seal» rtcp => rfl
    | «open» wire => rfl
    | replaceKeys keys =>
      simp only [FloorCall.onContext, SrtcpGcmContext.call] at hfailed
      rcases protection.context.replaceKeys_cases P keys with ⟨_, hcheck, -⟩ | ⟨-, heq⟩
      · simp only [FloorCall.onContext, GcmCall.installs, hcheck]
        rfl
      · simp [heq, Except.map] at hfailed
  cases hnext : (protection.call P input).2 with
  | mk context keys =>
    rw [hnext] at hsame hkeys
    cases protection with
    | mk held heldKeys =>
      obtain rfl : context = held := hsame
      obtain rfl : keys = heldKeys := hkeys
      rfl

/-! ### Sound protections -/

/-- What holds of every protection: its key set is the one the context holds, the send index has 31
bits, and stands at the last one when no index is left. -/
structure Sound (protection : FloorProtection) : Prop where
  holds : SrtcpGcmContext.Holds P protection.keys protection.context
  bounded : protection.context.Bounded
  stopped : protection.context.exhausted = true → protection.context.sendIndex = lastIndex

variable {P} {protection}

theorem stopped_call {context : SrtcpGcmContext}
    (hstopped : context.exhausted = true → context.sendIndex = lastIndex) (input : GcmCall) :
    (context.call P input).2.exhausted = true → (context.call P input).2.sendIndex = lastIndex := by
  cases input with
  | protect rtcp encrypt =>
    simp only [SrtcpGcmContext.call]
    rcases context.protect_cases P rtcp encrypt with ⟨_, heq⟩ | ⟨_, _, hopen, -, -, heq⟩
    · rw [heq]
      exact hstopped
    · rw [heq]
      by_cases hlast : context.sendIndex = lastIndex
      · simp [hlast]
      · simp [hlast, hopen]
  | unprotect srtcp =>
    simp only [SrtcpGcmContext.call]
    rcases context.unprotect_cases P srtcp with ⟨_, heq⟩ | ⟨_, _, -, -, -, heq⟩
    · rw [heq]
      exact hstopped
    · rw [heq]
      exact hstopped
  | replaceKeys keys =>
    simp only [SrtcpGcmContext.call]
    rcases context.replaceKeys_cases P keys with ⟨_, -, heq⟩ | ⟨-, heq⟩
    · rw [heq]
      exact hstopped
    · rw [heq]
      exact hstopped

/-- Every call keeps a protection sound. -/
theorem Sound.call (hsound : Sound P protection) (input : FloorCall) :
    Sound P (protection.call P input).2 := by
  have hcontext : (protection.call P input).2.context =
      (protection.context.call P input.onContext).2 := by
    rw [call_context]
  refine ⟨?_, ?_, ?_⟩
  · rw [hcontext, keys_call]
    exact hsound.holds.call input.onContext
  · rw [hcontext]
    exact (SrtcpGcmContext.nextIndex_call P hsound.bounded input.onContext).1
  · rw [hcontext]
    exact stopped_call hsound.stopped input.onContext

theorem Sound.final (hsound : Sound P protection) (calls : List FloorCall) :
    Sound P (final (FloorProtection.call P) protection calls) :=
  final_invariant (Sound P) (fun _ input _ hstate ↦ hstate.call input) hsound

theorem sound_of_new {keys : List FloorMasterKey} (hnew : new P keys = some protection) :
    Sound P protection ∧ protection.keys = SrtcpGcmContext.keptKeys keys := by
  unfold new at hnew
  split_ifs at hnew with hempty
  cases hcontext : SrtcpGcmContext.new P keys with
  | error error => simp [hcontext] at hnew
  | ok context =>
    simp only [hcontext, Option.some.injEq] at hnew
    subst hnew
    obtain ⟨hbounded, hnext⟩ := SrtcpGcmContext.bounded_of_new P hcontext
    refine ⟨⟨SrtcpGcmContext.holds_of_new hcontext, hbounded, ?_⟩, rfl⟩
    intro hexhausted
    have hused : context.exhausted = true := hexhausted
    simp [SrtcpGcmContext.nextIndex, hused] at hnext

/-- A key set that is held makes a protection of its own. -/
theorem exists_new {context : SrtcpGcmContext} {keys : List FloorMasterKey}
    (hholds : SrtcpGcmContext.Holds P keys context) :
    ∃ fresh, new P keys = some fresh ∧ fresh.keys = keys := by
  obtain ⟨hkept, hcheck⟩ := hholds.check
  have hnew : ∃ context, SrtcpGcmContext.new P keys = .ok context := by
    simp [SrtcpGcmContext.new, SrtcpGcmContext.replaceKeys, hkept, hcheck]
  obtain ⟨fresh, hfresh⟩ := hnew
  refine ⟨{ context := fresh, keys := SrtcpGcmContext.keptKeys keys }, ?_, hkept⟩
  unfold new
  rw [if_neg hholds.nonempty, hfresh]

/-- What a context received before does not touch what it sends. -/
theorem sending_resumeReceived (context : SrtcpGcmContext) (mki index : UInt32) :
    (context.resumeReceived mki index).sendIndex = context.sendIndex ∧
      (context.resumeReceived mki index).exhausted = context.exhausted := by
  unfold SrtcpGcmContext.resumeReceived
  split
  · exact ⟨rfl, rfl⟩
  · exact ⟨rfl, rfl⟩

theorem holds_resumeReceived {context : SrtcpGcmContext} {installed : List FloorMasterKey}
    (hholds : SrtcpGcmContext.Holds P installed context) (mki index : UInt32) :
    SrtcpGcmContext.Holds P installed (context.resumeReceived mki index) := by
  unfold SrtcpGcmContext.resumeReceived
  split
  · exact hholds
  · rename_i entry hentry
    exact hholds.withReplay hentry _

/-- A resumed protection is sound, has its keys, and starts at the index given. -/
theorem Sound.resume (hsound : Sound P protection) (index : UInt32)
    (received : List (UInt32 × UInt32)) :
    Sound P (protection.resume index received) ∧
      (protection.resume index received).keys = protection.keys ∧
      (protection.resume index received).sendIndex = index &&& indexMask ∧
      (protection.resume index received).context.exhausted = false := by
  -- the fold over what was received changes windows only
  have hfold : ∀ (pairs : List (UInt32 × UInt32)) (context : SrtcpGcmContext),
      SrtcpGcmContext.Holds P protection.keys context →
        let resumed := pairs.foldl (fun context pair ↦ context.resumeReceived pair.1 pair.2) context
        SrtcpGcmContext.Holds P protection.keys resumed ∧
          resumed.sendIndex = context.sendIndex ∧ resumed.exhausted = context.exhausted := by
    intro pairs
    induction pairs with
    | nil => exact fun context hholds ↦ ⟨hholds, rfl, rfl⟩
    | cons pair rest ih =>
      intro context hholds
      obtain ⟨hlast, hindex, hexhausted⟩ := ih _ (holds_resumeReceived hholds pair.1 pair.2)
      obtain ⟨hsame, hsame'⟩ := sending_resumeReceived context pair.1 pair.2
      exact ⟨hlast, hindex.trans hsame, hexhausted.trans hsame'⟩
  have hstart : SrtcpGcmContext.Holds P protection.keys (protection.context.setSendIndex index) :=
    ⟨hsound.holds.masters, hsound.holds.derived, hsound.holds.nonempty, hsound.holds.bound,
      hsound.holds.distinct⟩
  obtain ⟨hholds, hindex, hexhausted⟩ := hfold received _ hstart
  have hopen : (protection.resume index received).context.exhausted = false := hexhausted
  refine ⟨⟨hholds, ?_, ?_⟩, rfl, hindex, hopen⟩
  · show (protection.resume index received).context.sendIndex.toNat < 2 ^ 31
    have hmasked : (protection.resume index received).context.sendIndex = index &&& indexMask :=
      hindex
    rw [hmasked, toNat_and_indexMask]
    exact Nat.mod_lt _ (Nat.two_pow_pos 31)
  · rw [hopen]
    exact nofun

end FloorProtection

/-- Every registered protection is sound. -/
theorem sound_of_register {P : Primitives} {keys : List FloorMasterKey}
    {restore : Option FloorRestore} {protection : FloorProtection}
    (hregister : register P keys restore = some protection) : protection.Sound P := by
  obtain ⟨fresh, hnew, rfl⟩ := Option.map_eq_some_iff.mp hregister
  have hsound := (FloorProtection.sound_of_new hnew).1
  cases restore with
  | none => exact hsound
  | some restore => exact (hsound.resume restore.sendIndex restore.received).1

end SiphonRtp.Engine
