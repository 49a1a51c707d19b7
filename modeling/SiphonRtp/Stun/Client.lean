import SiphonRtp.Stun.RoundTrip

/-!
# The STUN client of ICE

`siphon-rtp-stun/src/client.rs`: the connectivity check an agent sends, the error response it may
get, the ICE attributes a receiver reads, and the retransmission clock of one transaction.

The role attribute of a check and what follows it stand at fixed places
(`readU16_bindingRequestIce_role`, `readU16_bindingRequestIce_flag`), so the octets tell the role
and the USE-CANDIDATE flag. Ticks are natural numbers; the offsets of the schedule saturate at the
largest `u64` as in the source.
-/

set_option autoImplicit false

namespace SiphonRtp.Stun

open Machine

/-! ### Messages -/

/-- The role of the sending agent with its tie-breaker. -/
inductive IceRole
  | controlling (tieBreaker : UInt64)
  | controlled (tieBreaker : UInt64)
deriving DecidableEq

/-- The attribute a role is announced with. -/
def IceRole.attr : IceRole → Attribute
  | .controlling tieBreaker => (attrIceControlling, toBe 8 tieBreaker.toNat)
  | .controlled tieBreaker => (attrIceControlled, toBe 8 tieBreaker.toNat)

/-- `binding_request_ice`. -/
def bindingRequestIce (digests : Digests) (id : TransactionId) (username integrityKey : Bytes)
    (priority : UInt32) (role : IceRole) (useCandidate : Bool) : Bytes :=
  let builder := ((MessageBuilder.new bindingRequest id).attribute attrPriority
    (toBe 4 priority.toNat)).attribute role.attr.1 role.attr.2
  let builder := if useCandidate then builder.attribute attrUseCandidate [] else builder
  (builder.attribute attrUsername username).finish digests (some integrityKey) true

/-- `turn::error_code_value`. -/
def errorCodeValue (code : UInt16) (reason : Bytes) : Bytes :=
  0 :: 0 :: (code / 100).toUInt8 :: (code % 100).toUInt8 :: reason

/-- `binding_error_response`. -/
def bindingErrorResponse (digests : Digests) (id : TransactionId) (code : UInt16) (reason : Bytes)
    (integrityKey : Option Bytes) : Bytes :=
  ((MessageBuilder.new bindingError id).attribute attrErrorCode
    (errorCodeValue code reason)).finish digests integrityKey true

/-- The PRIORITY of a check, if it is there and long enough. -/
def StunMessage.priority (message : StunMessage) : Option UInt32 :=
  (message.attribute attrPriority).bind fun value ↦
    if value.length < 4 then none else some (readU32 value 0)

def StunMessage.tieBreaker (message : StunMessage) (attr : UInt16) : Option UInt64 :=
  (message.attribute attr).bind fun value ↦
    if value.length < 8 then none else some (readU64 value 0)

def StunMessage.iceControlling (message : StunMessage) : Option UInt64 :=
  message.tieBreaker attrIceControlling

def StunMessage.iceControlled (message : StunMessage) : Option UInt64 :=
  message.tieBreaker attrIceControlled

def StunMessage.hasUseCandidate (message : StunMessage) : Bool :=
  (message.attribute attrUseCandidate).isSome

/-- `turn::error_code`. -/
def StunMessage.errorCode (message : StunMessage) : Option UInt16 :=
  (message.attribute attrErrorCode).bind fun value ↦
    value[2]?.bind fun class_ ↦ value[3]?.map fun number ↦
      class_.toUInt16 * 100 + number.toUInt16

/-- The part of a USERNAME before its first colon. -/
def leadingUfrag (username : Bytes) : Bytes := username.takeWhile (· ≠ 0x3A)

/-- Whether a request names a username fragment first. -/
def addressedTo (message : StunMessage) (ufrag : Bytes) : Bool :=
  decide (message.username.map leadingUfrag = some ufrag)

/-! ### What a check is read as -/

section Check

variable (username : Bytes) (priority : UInt32) (role : IceRole) (useCandidate : Bool)

/-- The octets of the attributes of a check before its trailers. -/
def checkBody : Bytes :=
  encodeAttribute attrPriority (toBe 4 priority.toNat) ++
    (encodeAttribute role.attr.1 role.attr.2 ++
      ((if useCandidate then encodeAttribute attrUseCandidate [] else []) ++
        encodeAttribute attrUsername username))

theorem bindingRequestIce_eq (digests : Digests) (id : TransactionId) (integrityKey : Bytes) :
    bindingRequestIce digests id username integrityKey priority role useCandidate =
      let body := signed digests bindingRequest id integrityKey
        (checkBody username priority role useCandidate)
      header bindingRequest body.length id ++ body := by
  have hnew : MessageBuilder.new bindingRequest id = ⟨header bindingRequest 0 id ++ []⟩ := by
    simp [MessageBuilder.new]
  unfold bindingRequestIce
  rw [hnew]
  dsimp only
  rw [attribute_header, attribute_header]
  cases useCandidate with
  | true =>
    rw [if_pos rfl, attribute_header, attribute_header, finish_header]
    simp [signed, checkBody]
  | false =>
    rw [if_neg Bool.false_ne_true, attribute_header, finish_header]
    simp [signed, checkBody]

/-- A check from its role attribute on. -/
theorem bindingRequestIce_split (digests : Digests) (id : TransactionId) (integrityKey : Bytes) :
    ∃ lead rest : Bytes, lead.length = 28 ∧
      bindingRequestIce digests id username integrityKey priority role useCandidate =
        lead ++ (encodeAttribute role.attr.1 role.attr.2 ++
          ((if useCandidate then encodeAttribute attrUseCandidate [] else []) ++
            (encodeAttribute attrUsername username ++ rest))) := by
  rw [bindingRequestIce_eq]
  dsimp only
  obtain ⟨trailers, htrailers⟩ : ∃ trailers, signed digests bindingRequest id integrityKey
      (checkBody username priority role useCandidate) =
        checkBody username priority role useCandidate ++ trailers :=
    ⟨_, List.append_assoc _ _ _⟩
  rw [htrailers]
  generalize (checkBody username priority role useCandidate ++ trailers).length = declared
  refine ⟨header bindingRequest declared id ++
    encodeAttribute attrPriority (toBe 4 priority.toNat), trailers, ?_, ?_⟩
  · rw [List.length_append, length_header, length_encodeAttribute, length_toBe]
    rfl
  · simp only [checkBody, List.append_assoc]

/-- The role attribute of a check stands at a fixed place. -/
theorem readU16_bindingRequestIce_role (digests : Digests) (id : TransactionId)
    (integrityKey : Bytes) :
    readU16 (bindingRequestIce digests id username integrityKey priority role useCandidate) 28 =
      role.attr.1 := by
  obtain ⟨lead, rest, hlead, hsplit⟩ := bindingRequestIce_split username priority role useCandidate
    digests id integrityKey
  rw [← hlead]
  exact readU16_of_split hsplit

/-- So does the attribute behind it, which is the USE-CANDIDATE flag or the USERNAME. -/
theorem readU16_bindingRequestIce_flag (digests : Digests) (id : TransactionId)
    (integrityKey : Bytes) :
    readU16 (bindingRequestIce digests id username integrityKey priority role useCandidate) 40 =
      if useCandidate then attrUseCandidate else attrUsername := by
  obtain ⟨lead, rest, hlead, hsplit⟩ := bindingRequestIce_split username priority role useCandidate
    digests id integrityKey
  have hrole : role.attr.2.length = 8 := by
    cases role <;> simp [IceRole.attr]
  have hlonger : (lead ++ encodeAttribute role.attr.1 role.attr.2).length = 40 := by
    rw [List.length_append, length_encodeAttribute, hlead, hrole]
    rfl
  rw [← List.append_assoc] at hsplit
  rw [← hlonger]
  cases useCandidate with
  | true =>
    exact readU16_of_split hsplit
  | false =>
    exact readU16_of_split hsplit

/-- The transaction id stands at a fixed place. -/
theorem transactionId_bindingRequestIce (digests : Digests) (id : TransactionId)
    (integrityKey : Bytes) :
    (Vector.ofFn fun position : Fin 12 ↦ octet (bindingRequestIce digests id username integrityKey
      priority role useCandidate) (8 + position)) = id := by
  rw [bindingRequestIce_eq]
  exact transactionId_header _ _ _ _

end Check

/-! ### The retransmission clock -/

/-- The largest `u64`, where the arithmetic of the schedule saturates. -/
def u64Max : ℕ := 2 ^ 64 - 1

/-- `RetransmitSchedule`. -/
structure RetransmitSchedule where
  rtoTicks : ℕ
  rc : ℕ
  rm : ℕ
deriving DecidableEq

/-- `RetransmitSchedule::new`, with the default `Rc` and `Rm`. -/
def RetransmitSchedule.new (rtoTicks : ℕ) : RetransmitSchedule := ⟨rtoTicks, 7, 16⟩

/-- The offset from the start at which a request is due, none once `Rc` requests went out. -/
def RetransmitSchedule.sendOffset (schedule : RetransmitSchedule) (attempt : ℕ) : Option ℕ :=
  if schedule.rc ≤ attempt then none
  else
    let factor := if attempt < 64 then 2 ^ attempt - 1 else u64Max
    some (min (factor * schedule.rtoTicks) u64Max)

/-- The offset at which the transaction has failed. -/
def RetransmitSchedule.timeoutOffset (schedule : RetransmitSchedule) : ℕ :=
  let last := (schedule.sendOffset (schedule.rc - 1)).getD 0
  min (last + min (schedule.rm * schedule.rtoTicks) u64Max) u64Max

inductive TransactionState
  | pending
  | succeeded
  | failed
deriving DecidableEq

/-- What `Transaction::poll` asks for. -/
inductive TransactionAction
  | wait
  | retransmit (count : ℕ)
  | failed
deriving DecidableEq

/-- One outstanding Binding request. -/
structure Transaction where
  id : TransactionId
  schedule : RetransmitSchedule
  startedTick : ℕ
  requestsSent : ℕ
  state : TransactionState
deriving DecidableEq

/-- `Transaction::start`: the caller sends the first request now. -/
def Transaction.start (id : TransactionId) (schedule : RetransmitSchedule) (now : ℕ) :
    Transaction where
  id := id
  schedule := schedule
  startedTick := now
  requestsSent := 1
  state := .pending

/-- `Transaction::poll`. -/
def Transaction.poll (transaction : Transaction) (now : ℕ) : TransactionAction × Transaction :=
  if transaction.state ≠ .pending then (.wait, transaction)
  else
    let elapsed := now - transaction.startedTick
    if transaction.schedule.timeoutOffset ≤ elapsed then
      (.failed, { transaction with state := .failed })
    else
      match transaction.schedule.sendOffset transaction.requestsSent with
      | some due =>
        if due ≤ elapsed then
          (.retransmit (transaction.requestsSent + 1),
            { transaction with requestsSent := transaction.requestsSent + 1 })
        else (.wait, transaction)
      | none => (.wait, transaction)

/-- A poll keeps the id, the timetable and the start of a transaction. -/
theorem poll_frame (transaction : Transaction) (now : ℕ) :
    (transaction.poll now).2.id = transaction.id ∧
      (transaction.poll now).2.schedule = transaction.schedule ∧
      (transaction.poll now).2.startedTick = transaction.startedTick := by
  unfold Transaction.poll
  split
  · exact ⟨rfl, rfl, rfl⟩
  dsimp only
  split
  · exact ⟨rfl, rfl, rfl⟩
  split
  · split
    · exact ⟨rfl, rfl, rfl⟩
    · exact ⟨rfl, rfl, rfl⟩
  · exact ⟨rfl, rfl, rfl⟩

end SiphonRtp.Stun
