import SiphonRtp.Engine.CallFloor
import SiphonRtp.Stun.Message

/-!
# The floor streams of a two-party call

How the offer and the answers of a call key its two floor streams: `anchor_offer_floor` and
`install_answer_floor` of `siphon-rtp-engine/src/engine/floor.rs`, the table of held offer keys of
`call_floor.rs`, `set_floor_keys` of `engine/floor_keys.rs`, and the conversion of the controller's
keys in `floor_srtcp.rs`. The SDP is left out: an offer and an answer are the floor address they
carry and the profile that comes with them.

The keys of the offer are held until an answer takes them, and every answer registers both legs
again. The second answer of a call therefore finds no keys for the offerer, and serves its stream in
the clear (`second_answer_clears_offerer`). `floor_stays_keyed_iff` says exactly when a stream that
was protected stays so: when each answer that registers finds keys for every leg that is keyed.
-/

set_option autoImplicit false

namespace SiphonRtp.Engine

open Machine Datapath Srtp

/-! ### Keys of the controller -/

/-- A floor key as the controller gives it. -/
structure FloorKey where
  mki : UInt32
  key : Bytes
  salt : Bytes
deriving DecidableEq

/-- `FLOOR_KEY_LEN`. -/
def floorKeyLen : ℕ := 16

/-- `FLOOR_SALT_LEN`, the 96-bit salt of RFC 7714. -/
def floorSaltLen : ℕ := 12

/-- `FLOOR_SALT_LEN_LONG`, the 112-bit salt of RFC 3711. -/
def floorSaltLenLong : ℕ := 14

/-- The octets as an array of their number, nothing for another number. -/
def exactly (n : ℕ) (octets : Bytes) : Option (Vector UInt8 n) :=
  if hlength : octets.toArray.size = n then some ⟨octets.toArray, hlength⟩ else none

def FloorKey.validate (key : FloorKey) : Except String Unit :=
  if key.key.length ≠ floorKeyLen then
    .error ("floor key must be 16 octets, got " ++ toString key.key.length)
  else if key.salt.length ≠ floorSaltLen ∧ key.salt.length ≠ floorSaltLenLong then
    .error ("floor salt must be 12 or 14 octets, got " ++ toString key.salt.length)
  else .ok ()

/-- `FloorMasterKey::from_salt_96`. -/
def fromSalt96 (mki : UInt32) (masterKey : Vector UInt8 16) (salt : Vector UInt8 12) :
    FloorMasterKey where
  mki
  masterKey
  masterSalt := Vector.append salt (Vector.replicate 2 0)

/-- The master key of one floor key. -/
def FloorKey.master (key : FloorKey) : Except String FloorMasterKey :=
  match key.validate with
  | .error reason => .error reason
  | .ok () =>
    match exactly 16 key.key with
    | none => .error "floor key is not 16 octets"
    | some masterKey =>
      if key.salt.length = floorSaltLen then
        match exactly 12 key.salt with
        | none => .error "floor salt is not 12 octets"
        | some salt => .ok (fromSalt96 key.mki masterKey salt)
      else
        match exactly 14 key.salt with
        | none => .error "floor salt is not 14 octets"
        | some masterSalt => .ok { mki := key.mki, masterKey, masterSalt }

/-- The source gate a profile asks for. -/
inductive SourcePosture
  | exact
  | subnet
  | any
deriving DecidableEq

/-- The gate around an address. -/
def SourcePosture.gate (posture : SourcePosture) (address : SocketAddr) : SourceFilter :=
  match posture with
  | .any => .any
  | .subnet =>
    .subnet address.ip (match address with
      | .v4 _ _ => 24
      | .v6 _ _ _ _ => 64)
  | .exact => .exact address.ip

/-- `SocketAddr::new`. -/
def SocketAddr.new (ip : IpAddr) (port : UInt16) : SocketAddr :=
  match ip with
  | .v4 ip => .v4 ip port
  | .v6 ip => .v6 ip port 0 0

/-- `peer_media_address`: the signalled port on the address of the hint, if there is one. -/
def peerMediaAddress (signalled : SocketAddr) (hint : Option IpAddr) : SocketAddr :=
  (hint.map fun ip ↦ SocketAddr.new ip (Stun.SocketAddr.port signalled)).getD signalled

section Call

variable (P : Primitives)

/-- `master_keys`. -/
def masterKeys (keys : List FloorKey) : Except String (List FloorMasterKey) :=
  match keys.mapM FloorKey.master with
  | .error reason => .error reason
  | .ok converted =>
    if converted = [] then .ok converted
    else
      match SrtcpGcmContext.new P converted with
      | .error error => .error ("floor_keys: " ++ srtpErrorText error)
      | .ok _ => .ok converted

/-! ### The call -/

inductive FloorParty
  | offerer
  | answerer
deriving DecidableEq

/-- What a call has of its floor streams. -/
structure FloorCallState where
  /-- The offerer's floor address, when the stream it offered was anchored. -/
  anchored : Option SocketAddr
  offerHint : Option IpAddr
  /-- The offerer's keys, until an answer takes them. -/
  offerKeys : Option (List FloorMasterKey)
  near : Option FloorLeg
  far : Option FloorLeg
deriving DecidableEq

/-- An offer with a floor stream that can be anchored, and its profile. -/
structure FloorOffer where
  remote : SocketAddr
  receivedFrom : Option IpAddr
  keys : List FloorKey
deriving DecidableEq

/-- An answer and its profile. `remote` is the address of the floor stream it keeps. -/
structure FloorAnswer where
  reversed : Bool
  remote : Option SocketAddr
  receivedFrom : Option IpAddr
  posture : SourcePosture
  keys : List FloorKey
  /-- The SSRCs drawn for the two legs. -/
  nearSsrc : UInt32
  farSsrc : UInt32
deriving DecidableEq

/-- The call an offer creates: keys that cannot be applied decline the stream, and an empty set is
not held. -/
def offerFloor (offer : FloorOffer) : FloorCallState :=
  match masterKeys P offer.keys with
  | .error _ =>
    { anchored := none, offerHint := offer.receivedFrom, offerKeys := none, near := none,
      far := none }
  | .ok keys =>
    { anchored := some offer.remote
      offerHint := offer.receivedFrom
      offerKeys := if keys = [] then none else some keys
      near := none
      far := none }

namespace FloorCallState

/-- The leg of a party. -/
def leg (state : FloorCallState) : FloorParty → Option FloorLeg
  | .offerer => state.near
  | .answerer => state.far

def withLeg (state : FloorCallState) (stream : Option FloorLeg) : FloorParty → FloorCallState
  | .offerer => { state with near := stream }
  | .answerer => { state with far := stream }

/-- The leg an answer registers for one party. -/
def answerLeg (answer : FloorAnswer) (destination : SocketAddr) (ssrc : UInt32)
    (keys : List FloorMasterKey) : FloorLeg :=
  registerLeg P
    { destination, acceptedSource := answer.posture.gate destination, ssrc, keys, restore := none }

/-- `install_answer_floor`. The held keys are taken before the answer's own are converted. -/
def installAnswer (state : FloorCallState) (answer : FloorAnswer) : FloorCallState :=
  match state.anchored, answer.remote with
  | some nearSignalled, some answered =>
    if answer.reversed then state
    else
      let nearKeys := state.offerKeys.getD []
      let taken := { state with offerKeys := none }
      match masterKeys P answer.keys with
      | .error _ => taken
      | .ok farKeys =>
        { taken with
          near := some (answerLeg P answer (peerMediaAddress nearSignalled state.offerHint)
            answer.nearSsrc nearKeys)
          far := some (answerLeg P answer (peerMediaAddress answered answer.receivedFrom)
            answer.farSsrc farKeys) }
  | _, _ => state

end FloorCallState

/-- What happens to the floor streams of a call. -/
inductive FloorCallOp
  | answer (answer : FloorAnswer)
  | setFloorKeys (party : FloorParty) (keys : List FloorKey)
  | ingest (party : FloorParty) (packet : RxPacket)
  | send (party : FloorParty) (request : AppRequest)
deriving DecidableEq

inductive FloorCallOutput
  | answered
  | invalidKeys (reason : String)
  | stream (output : FloorOutput)

/-- One operation on the stream of a party. -/
def onParty (state : FloorCallState) (party : FloorParty) (input : LegInput) :
    FloorCallOutput × FloorCallState :=
  (.stream (floorStep P (state.leg party) (.leg input)).1,
    state.withLeg (floorStep P (state.leg party) (.leg input)).2 party)

/-- One operation on the call. -/
def floorCallStep (state : FloorCallState) : FloorCallOp → FloorCallOutput × FloorCallState
  | .answer answer => (.answered, state.installAnswer P answer)
  | .setFloorKeys party keys =>
    match masterKeys P keys with
    | .error reason => (.invalidKeys reason, state)
    | .ok keys => onParty P state party (.setKeys keys)
  | .ingest party packet => onParty P state party (.ingest packet)
  | .send party request => onParty P state party (.send request)

/-! ### Keyed streams -/

/-- A stream that is served, and protected. -/
def keyed (stream : Option FloorLeg) : Bool := stream.any (·.protection.isSome)

variable {P}

/-- Keys that were converted make a protection, and only no keys are converted to none. -/
theorem masterKeys_spec {keys : List FloorKey} {converted : List FloorMasterKey}
    (hkeys : masterKeys P keys = .ok converted) :
    (converted = [] ↔ keys = []) ∧
      (converted ≠ [] → ∃ protection, FloorProtection.new P converted = some protection) := by
  unfold masterKeys at hkeys
  cases hmapped : keys.mapM FloorKey.master with
  | error reason =>
    rw [hmapped] at hkeys
    exact nomatch hkeys
  | ok masters =>
    simp only [hmapped] at hkeys
    have hempty : masters = [] ↔ keys = [] := by
      cases keys with
      | nil =>
        obtain rfl := Except.ok.inj hmapped
        simp
      | cons key rest =>
        rw [List.mapM_cons] at hmapped
        cases hfirst : key.master with
        | error reason =>
          rw [hfirst] at hmapped
          exact nomatch hmapped
        | ok master =>
          cases hrest : rest.mapM FloorKey.master with
          | error reason =>
            rw [hfirst, hrest] at hmapped
            exact nomatch hmapped
          | ok others =>
            rw [hfirst, hrest] at hmapped
            obtain rfl := Except.ok.inj hmapped
            simp
    split_ifs at hkeys with hnone
    · obtain rfl := Except.ok.inj hkeys
      exact ⟨hempty, fun h ↦ absurd hnone h⟩
    · cases hcontext : SrtcpGcmContext.new P masters with
      | error error =>
        rw [hcontext] at hkeys
        exact nomatch hkeys
      | ok context =>
        rw [hcontext] at hkeys
        obtain rfl := Except.ok.inj hkeys
        refine ⟨hempty, fun _ ↦ ⟨{ context, keys := SrtcpGcmContext.keptKeys masters }, ?_⟩⟩
        rw [FloorProtection.new, if_neg hnone, hcontext]

/-- Only an empty key set takes the protection of a stream away. -/
theorem keyed_floorStep {stream : Option FloorLeg} (hkeyed : keyed stream = true)
    {input : LegInput} (hkeys : input ≠ .setKeys []) :
    keyed (floorStep P stream (.leg input)).2 = true := by
  cases stream with
  | none => exact nomatch hkeyed
  | some leg =>
    have hheld : leg.protection.isSome = true := hkeyed
    show (leg.step P input).2.protection.isSome = true
    rcases leg.protection_step P input with
      hsame | ⟨hempty, -⟩ | ⟨_, _, -, hcall⟩ | ⟨_, _, -, -, -, -, hnext⟩
    · rw [hsame]
      exact hheld
    · exact absurd hempty hkeys
    · rw [hcall]
      rfl
    · rw [hnext]
      rfl

/-! ### Answers -/

namespace FloorCallState

@[simp] theorem leg_withLeg_self (state : FloorCallState) (stream : Option FloorLeg)
    (party : FloorParty) : (state.withLeg stream party).leg party = stream := by
  cases party with
  | offerer => rfl
  | answerer => rfl

theorem leg_withLeg_of_ne (state : FloorCallState) (stream : Option FloorLeg)
    {party other : FloorParty} (hother : other ≠ party) :
    (state.withLeg stream party).leg other = state.leg other := by
  cases party with
  | offerer =>
    cases other with
    | offerer => exact absurd rfl hother
    | answerer => rfl
  | answerer =>
    cases other with
    | offerer => rfl
    | answerer => exact absurd rfl hother

theorem offerKeys_withLeg (state : FloorCallState) (stream : Option FloorLeg)
    (party : FloorParty) : (state.withLeg stream party).offerKeys = state.offerKeys := by
  cases party with
  | offerer => rfl
  | answerer => rfl

variable (P)

/-- The answer registers both legs. -/
def Registers (state : FloorCallState) (answer : FloorAnswer) : Prop :=
  state.anchored.isSome = true ∧ answer.remote.isSome = true ∧ answer.reversed = false ∧
    (masterKeys P answer.keys).isOk = true

/-- The answer finds keys for a party: the offerer's are the held ones, the answerer's its own. -/
def KeysFor (state : FloorCallState) (answer : FloorAnswer) : FloorParty → Prop
  | .offerer => state.offerKeys.isSome = true
  | .answerer => answer.keys ≠ []

/-- The keys that are held can be applied. -/
def HoldsApplicable (state : FloorCallState) : Prop :=
  ∀ keys, state.offerKeys = some keys → ∃ protection, FloorProtection.new P keys = some protection

variable {P}

theorem protection_answerLeg (answer : FloorAnswer) (destination : SocketAddr) (ssrc : UInt32)
    (keys : List FloorMasterKey) :
    (answerLeg P answer destination ssrc keys).protection = FloorProtection.new P keys := by
  show (FloorProtection.new P keys).map _ = _
  cases FloorProtection.new P keys with
  | none => rfl
  | some protection => rfl

/-- An answer that does not register leaves the legs alone. -/
theorem installAnswer_of_not_registers {state : FloorCallState} {answer : FloorAnswer}
    (hnot : ¬ state.Registers P answer) (party : FloorParty) :
    (state.installAnswer P answer).leg party = state.leg party := by
  unfold installAnswer
  split
  case h_2 => rfl
  case h_1 nearSignalled answered hanchored hremote =>
    split
    case isTrue => rfl
    case isFalse hreversed =>
      cases hkeys : masterKeys P answer.keys with
      | error reason =>
        cases party with
        | offerer => rfl
        | answerer => rfl
      | ok farKeys =>
        refine absurd ⟨?_, ?_, Bool.eq_false_iff.mpr hreversed, ?_⟩ hnot
        · rw [hanchored]
          rfl
        · rw [hremote]
          rfl
        · rw [hkeys]
          rfl

/-- An answer that registers builds both legs again, the offerer's with the keys that are held. -/
theorem installAnswer_of_registers {state : FloorCallState} {answer : FloorAnswer}
    (hregisters : state.Registers P answer) :
    ∃ near far farKeys, masterKeys P answer.keys = .ok farKeys ∧
      state.installAnswer P answer =
        { state with
          offerKeys := none
          near := some (answerLeg P answer near answer.nearSsrc (state.offerKeys.getD []))
          far := some (answerLeg P answer far answer.farSsrc farKeys) } := by
  obtain ⟨hanchored, hremote, hreversed, hok⟩ := hregisters
  obtain ⟨nearSignalled, hnear⟩ := Option.isSome_iff_exists.mp hanchored
  obtain ⟨answered, hfar⟩ := Option.isSome_iff_exists.mp hremote
  cases hkeys : masterKeys P answer.keys with
  | error reason =>
    rw [hkeys] at hok
    exact nomatch hok
  | ok farKeys =>
    refine ⟨peerMediaAddress nearSignalled state.offerHint,
      peerMediaAddress answered answer.receivedFrom, farKeys, rfl, ?_⟩
    simp only [installAnswer, hnear, hfar, hreversed, hkeys]
    rfl

/-- A leg that is registered again is protected when there are keys for it. Assumes: the keys that
are held can be applied. -/
theorem keyed_installAnswer {state : FloorCallState} (hholds : state.HoldsApplicable P)
    {answer : FloorAnswer} (hregisters : state.Registers P answer) (party : FloorParty) :
    keyed ((state.installAnswer P answer).leg party) = true ↔ state.KeysFor answer party := by
  obtain ⟨near, far, farKeys, hkeys, hinstalled⟩ := installAnswer_of_registers hregisters
  rw [hinstalled]
  cases party with
  | offerer =>
    show (answerLeg P answer _ _ _).protection.isSome = true ↔ state.offerKeys.isSome = true
    rw [protection_answerLeg]
    cases hheld : state.offerKeys with
    | none => exact Iff.rfl
    | some keys =>
      obtain ⟨protection, hnew⟩ := hholds keys hheld
      rw [Option.getD_some, hnew]
      exact Iff.rfl
  | answerer =>
    show (answerLeg P answer _ _ _).protection.isSome = true ↔ answer.keys ≠ []
    obtain ⟨hempty, hnew⟩ := masterKeys_spec hkeys
    rw [protection_answerLeg, ne_eq, ← hempty]
    by_cases hfar : farKeys = []
    · subst hfar
      simp [FloorProtection.new]
    · obtain ⟨protection, hprotection⟩ := hnew hfar
      simp [hprotection, hfar]

/-- The held keys are only ever taken. -/
theorem offerKeys_step (state : FloorCallState) (op : FloorCallOp) :
    (floorCallStep P state op).2.offerKeys = state.offerKeys ∨
      (floorCallStep P state op).2.offerKeys = none := by
  cases op with
  | answer answer =>
    simp only [floorCallStep, installAnswer]
    split
    · split
      · exact Or.inl rfl
      · split
        · exact Or.inr rfl
        · exact Or.inr rfl
    · exact Or.inl rfl
  | setFloorKeys party keys =>
    simp only [floorCallStep]
    split
    · exact Or.inl rfl
    · exact Or.inl (offerKeys_withLeg _ _ party)
  | ingest party packet => exact Or.inl (offerKeys_withLeg _ _ party)
  | send party request => exact Or.inl (offerKeys_withLeg _ _ party)

theorem HoldsApplicable.step {state : FloorCallState} (hholds : state.HoldsApplicable P)
    (op : FloorCallOp) : (floorCallStep P state op).2.HoldsApplicable P := by
  intro keys hkeys
  rcases offerKeys_step state op with hsame | hnone
  · exact hholds keys (hsame.symm.trans hkeys)
  · exact nomatch hnone.symm.trans hkeys

theorem holdsApplicable_offerFloor (offer : FloorOffer) :
    (offerFloor P offer).HoldsApplicable P := by
  intro keys hkeys
  unfold offerFloor at hkeys
  cases hconverted : masterKeys P offer.keys with
  | error reason => simp [hconverted] at hkeys
  | ok converted =>
    simp only [hconverted] at hkeys
    split_ifs at hkeys with hempty
    obtain rfl := Option.some.inj hkeys
    exact (masterKeys_spec hconverted).2 hempty

end FloorCallState

/-! ### A call -/

variable (P) in
/-- The call before position `k` of what follows its offer. -/
def callAt (offer : FloorOffer) (ops : List FloorCallOp) (k : ℕ) : FloorCallState :=
  final (floorCallStep P) (offerFloor P offer) (ops.take k)

theorem holdsApplicable_callAt (offer : FloorOffer) (ops : List FloorCallOp) (k : ℕ) :
    (callAt P offer ops k).HoldsApplicable P :=
  final_invariant (FloorCallState.HoldsApplicable P) (fun _ op _ hholds ↦ hholds.step op)
    (FloorCallState.holdsApplicable_offerFloor offer)

/-- What one operation can do to a keyed stream: an answer decides by the keys it finds, and
anything else but an empty key set leaves the stream keyed. -/
theorem keyed_floorCallStep {state : FloorCallState} (hholds : state.HoldsApplicable P)
    {party : FloorParty} (hkeyed : keyed (state.leg party) = true) {op : FloorCallOp}
    (hkeys : op ≠ .setFloorKeys party [])
    (hanswer : ∀ answer, op = .answer answer → state.Registers P answer →
      state.KeysFor answer party) : keyed ((floorCallStep P state op).2.leg party) = true := by
  have honParty : ∀ (other : FloorParty) (input : LegInput), (other = party →
      input ≠ .setKeys []) → keyed ((onParty P state other input).2.leg party) = true := by
    intro other input hsame
    by_cases hother : other = party
    · subst hother
      rw [onParty, FloorCallState.leg_withLeg_self]
      exact keyed_floorStep hkeyed (hsame rfl)
    · rw [onParty, FloorCallState.leg_withLeg_of_ne _ _ fun h ↦ hother h.symm]
      exact hkeyed
  cases op with
  | answer answer =>
    by_cases hregisters : state.Registers P answer
    · exact (FloorCallState.keyed_installAnswer hholds hregisters party).mpr
        (hanswer answer rfl hregisters)
    · simp only [floorCallStep, FloorCallState.installAnswer_of_not_registers hregisters]
      exact hkeyed
  | setFloorKeys other keys =>
    cases hconverted : masterKeys P keys with
    | error reason =>
      simp only [floorCallStep, hconverted]
      exact hkeyed
    | ok converted =>
      simp only [floorCallStep, hconverted]
      refine honParty other _ fun hsame hempty ↦ ?_
      have hnone : keys = [] := (masterKeys_spec hconverted).1.mp (LegInput.setKeys.inj hempty)
      exact hkeys (by rw [hsame, hnone])
  | ingest other packet => exact honParty other _ fun _ ↦ nofun
  | send other request => exact honParty other _ fun _ ↦ nofun

variable (P) in
/-- A floor stream that was protected is not served in the clear later, unless its keys were
removed. -/
def StaysKeyed (offer : FloorOffer) (ops : List FloorCallOp) : Prop :=
  ∀ (party : FloorParty) (i j : ℕ), i ≤ j → j ≤ ops.length →
    keyed ((callAt P offer ops i).leg party) = true →
    (∀ k, i ≤ k → k < j → ops[k]? ≠ some (.setFloorKeys party [])) →
      keyed ((callAt P offer ops j).leg party) = true

/-- Over the answers, key changes, datagrams and sends that follow the offer of a call, a floor
stream that was protected stays protected, exactly when each answer that registers the legs finds
keys for those that are. -/
theorem floor_stays_keyed_iff (offer : FloorOffer) (ops : List FloorCallOp) :
    StaysKeyed P offer ops ↔
      ∀ (k : ℕ) (answer : FloorAnswer) (party : FloorParty), ops[k]? = some (.answer answer) →
        (callAt P offer ops k).Registers P answer →
        keyed ((callAt P offer ops k).leg party) = true →
          (callAt P offer ops k).KeysFor answer party := by
  constructor
  · intro hstays k answer party hop hregisters hkeyed
    have hlast : k < ops.length := (List.getElem?_eq_some_iff.mp hop).1
    have hafter := hstays party k (k + 1) (Nat.le_succ k) hlast hkeyed fun m hkm hmk ↦ by
      obtain rfl : m = k := by omega
      rw [hop]
      exact nofun
    rw [callAt, final_take_succ _ hop] at hafter
    exact (FloorCallState.keyed_installAnswer (holdsApplicable_callAt offer ops k) hregisters
      party).mp hafter
  · intro hanswers party i j hij hj hkeyed hremoved
    induction j, hij using Nat.le_induction with
    | base => exact hkeyed
    | succ j hij ih =>
      have hop : ops[j]? = some ops[j] := List.getElem?_eq_getElem hj
      have hbefore := ih (Nat.le_of_succ_le hj) fun k hik hkj ↦
        hremoved k hik (Nat.lt_succ_of_lt hkj)
      rw [callAt, final_take_succ _ hop]
      refine keyed_floorCallStep (holdsApplicable_callAt offer ops j) hbefore ?_ ?_
      · intro hsame
        exact hremoved j hij (Nat.lt_succ_self j) (hop.trans (congrArg some hsame))
      · intro answer hanswer hregisters
        exact hanswers j answer party (hop.trans (congrArg some hanswer)) hregisters hbefore

end Call

/-- A key of the controller. -/
def sampleFloorKey : FloorKey where
  mki := 7
  key := List.replicate 16 1
  salt := List.replicate 12 2

/-- An answer that keeps the floor stream and carries the answerer's key. -/
def sampleFloorAnswer : FloorAnswer where
  reversed := false
  remote := some (.v4 0x0A000002 4000)
  receivedFrom := none
  posture := .exact
  keys := [sampleFloorKey]
  nearSsrc := 1
  farSsrc := 2

/-- The offer carries a key, and so does each of the two answers. The first answer protects both
streams, and the second one leaves the stream of the offerer in the clear. -/
theorem second_answer_clears_offerer :
    ¬ StaysKeyed transparent
      { remote := .v4 0x0A000001 4000, receivedFrom := none, keys := [sampleFloorKey] }
      [.answer sampleFloorAnswer, .answer sampleFloorAnswer] := by
  intro hstays
  have hlater := hstays .offerer 1 2 (by decide) (by decide) (by decide) fun k hone htwo ↦ by
    obtain rfl : k = 1 := by omega
    decide
  exact absurd hlater (by decide)

end SiphonRtp.Engine
