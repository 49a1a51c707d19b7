import SiphonRtp.Stun.Client

/-!
# The retransmission timetable

`Transaction` of `siphon-rtp-stun/src/client.rs` under any sequence of polls and responses.
`Stepped` lists what one call can do, and `Tally` counts what the calls so far have asked for. The
due times saturate at the largest `u64`, but so does the final timeout, which is looked at first: a
request whose due time is out of range is never made.
-/

set_option autoImplicit false

namespace SiphonRtp.Stun

open Machine

/-- `Transaction::on_response`. -/
def Transaction.onResponse (transaction : Transaction) (responseId : TransactionId) :
    Bool × Transaction :=
  if transaction.state = .pending ∧ responseId = transaction.id then
    (true, { transaction with state := .succeeded })
  else (false, transaction)

inductive TransactionCall
  | poll (now : ℕ)
  | onResponse (responseId : TransactionId)

inductive TransactionReturn
  | polled (action : TransactionAction)
  | responded (accepted : Bool)
deriving DecidableEq

/-- A poll that asks for the request to be sent again. -/
def TransactionReturn.retransmits : TransactionReturn → Bool
  | polled (.retransmit _) => true
  | _ => false

/-- What the owner of a transaction calls. -/
def Transaction.step (transaction : Transaction) :
    TransactionCall → TransactionReturn × Transaction
  | .poll now => (.polled (transaction.poll now).1, (transaction.poll now).2)
  | .onResponse responseId =>
    (.responded (transaction.onResponse responseId).1, (transaction.onResponse responseId).2)

/-! ### One call -/

/-- What a call can do. -/
inductive Stepped (transaction : Transaction) (call : TransactionCall) :
    TransactionReturn → Transaction → Prop
  | quiet {returned : TransactionReturn}
      (hreturned : returned = .polled .wait ∨ returned = .responded false)
      (hearly : transaction.state = .pending → ∀ now, call = .poll now →
        now - transaction.startedTick < transaction.schedule.timeoutOffset)
      (hother : transaction.state = .pending → call ≠ .onResponse transaction.id) :
      Stepped transaction call returned transaction
  | resent {now : ℕ} (hcall : call = .poll now) (hpending : transaction.state = .pending)
      (hearly : now - transaction.startedTick < transaction.schedule.timeoutOffset)
      (hcount : transaction.requestsSent < transaction.schedule.rc)
      (hdue : transaction.startedTick +
        (2 ^ transaction.requestsSent - 1) * transaction.schedule.rtoTicks ≤ now) :
      Stepped transaction call (.polled (.retransmit (transaction.requestsSent + 1)))
        { transaction with requestsSent := transaction.requestsSent + 1 }
  | failed {now : ℕ} (hcall : call = .poll now) (hpending : transaction.state = .pending)
      (hlate : transaction.schedule.timeoutOffset ≤ now - transaction.startedTick) :
      Stepped transaction call (.polled .failed) { transaction with state := .failed }
  | accepted (hcall : call = .onResponse transaction.id)
      (hpending : transaction.state = .pending) :
      Stepped transaction call (.responded true) { transaction with state := .succeeded }

theorem RetransmitSchedule.timeoutOffset_le (schedule : RetransmitSchedule) :
    schedule.timeoutOffset ≤ u64Max := min_le_right _ _

/-- Before the timeout a request that is due is due at its exact time. -/
theorem RetransmitSchedule.due_le {schedule : RetransmitSchedule} {attempt due elapsed : ℕ}
    (hoffset : schedule.sendOffset attempt = some due) (hdue : due ≤ elapsed)
    (hearly : elapsed < schedule.timeoutOffset) :
    attempt < schedule.rc ∧ (2 ^ attempt - 1) * schedule.rtoTicks ≤ elapsed := by
  have hrange := schedule.timeoutOffset_le
  rw [sendOffset] at hoffset
  split at hoffset
  · cases hoffset
  next hcount =>
    have hmin : min _ u64Max = due := Option.some.inj hoffset
    refine ⟨Nat.lt_of_not_le hcount, ?_⟩
    by_cases hattempt : attempt < 64
    · rw [if_pos hattempt] at hmin
      omega
    · -- the factor saturates, so only a timeout of zero ticks could make it due
      rw [if_neg hattempt] at hmin
      have hzero : schedule.rtoTicks = 0 := by
        by_contra hne
        have hle : u64Max ≤ u64Max * schedule.rtoTicks :=
          Nat.le_mul_of_pos_right _ (Nat.pos_of_ne_zero hne)
        omega
      rw [hzero]
      exact Nat.zero_le _

/-- A request that is sent again takes time: with a timeout of zero ticks the first poll fails. -/
theorem RetransmitSchedule.rto_pos {schedule : RetransmitSchedule} {elapsed : ℕ}
    (hearly : elapsed < schedule.timeoutOffset) : 0 < schedule.rtoTicks := by
  rw [Nat.pos_iff_ne_zero]
  intro hzero
  have hlast : (schedule.sendOffset (schedule.rc - 1)).getD 0 = 0 := by
    rw [sendOffset]
    split
    · rfl
    · simp [hzero]
  rw [timeoutOffset, hlast, hzero] at hearly
  simp at hearly

theorem Transaction.stepped_poll (transaction : Transaction) (now : ℕ)
    (hsent : 0 < transaction.requestsSent) :
    Stepped transaction (.poll now) (.polled (transaction.poll now).1)
      (transaction.poll now).2 := by
  unfold Transaction.poll
  by_cases hpending : transaction.state = .pending
  · rw [if_neg (not_not.mpr hpending)]
    by_cases hlate : transaction.schedule.timeoutOffset ≤ now - transaction.startedTick
    · rw [if_pos hlate]
      exact .failed rfl hpending hlate
    · rw [if_neg hlate]
      have hearly := Nat.lt_of_not_le hlate
      have hquiet : Stepped transaction (.poll now) (.polled .wait) transaction := by
        refine .quiet (.inl rfl) (fun _ other hother ↦ ?_) fun _ hother ↦ (by cases hother)
        cases hother
        exact hearly
      cases hoffset : transaction.schedule.sendOffset transaction.requestsSent with
      | none => exact hquiet
      | some due =>
        dsimp only
        by_cases hdue : due ≤ now - transaction.startedTick
        · rw [if_pos hdue]
          obtain ⟨hcount, hexact⟩ := RetransmitSchedule.due_le hoffset hdue hearly
          refine .resent rfl hpending hearly hcount ?_
          -- some time has passed, so the subtraction of the start was not cut off
          have hone : 1 ≤ 2 ^ transaction.requestsSent - 1 := by
            have hpow := Nat.pow_le_pow_right (show 0 < 2 by decide) hsent
            omega
          have hpos := Nat.mul_pos hone (RetransmitSchedule.rto_pos hearly)
          omega
        · rw [if_neg hdue]
          exact hquiet
  · rw [if_pos hpending]
    exact .quiet (.inl rfl) (fun h ↦ absurd h hpending) fun h ↦ absurd h hpending

theorem Transaction.stepped (transaction : Transaction) (call : TransactionCall)
    (hsent : 0 < transaction.requestsSent) :
    Stepped transaction call (transaction.step call).1 (transaction.step call).2 := by
  cases call with
  | poll now => exact transaction.stepped_poll now hsent
  | onResponse responseId =>
    dsimp only [Transaction.step]
    unfold Transaction.onResponse
    split
    next hmatch =>
      obtain ⟨hpending, rfl⟩ := hmatch
      exact .accepted rfl hpending
    next hmatch =>
      refine .quiet (.inr rfl) (fun _ now hcall ↦ (by cases hcall)) fun hpending hcall ↦ ?_
      cases hcall
      exact hmatch ⟨hpending, rfl⟩

/-- A transaction that is settled asks for nothing and stays as it is. -/
theorem Transaction.step_of_settled {transaction : Transaction}
    (hsettled : transaction.state ≠ .pending) (call : TransactionCall) :
    ((transaction.step call).1 = .polled .wait ∨ (transaction.step call).1 = .responded false) ∧
      (transaction.step call).2 = transaction := by
  cases call with
  | poll now =>
    dsimp only [Transaction.step]
    rw [Transaction.poll, if_pos hsettled]
    exact ⟨.inl rfl, rfl⟩
  | onResponse responseId =>
    dsimp only [Transaction.step]
    rw [Transaction.onResponse, if_neg fun h ↦ hsettled h.1]
    exact ⟨.inr rfl, rfl⟩

/-! ### Runs -/

/-- A transaction after some calls, with what they have returned. -/
structure Tally (first transaction : Transaction) (returned : List TransactionReturn) : Prop where
  id : transaction.id = first.id
  schedule : transaction.schedule = first.schedule
  startedTick : transaction.startedTick = first.startedTick
  sent : transaction.requestsSent = 1 + returned.countP TransactionReturn.retransmits
  sent_le : transaction.requestsSent ≤ max first.schedule.rc 1
  failed : returned.count (.polled .failed) = if transaction.state = .failed then 1 else 0
  pending : .polled .failed ∉ returned → .responded true ∉ returned → transaction.state = .pending

theorem Tally.step {first transaction : Transaction} {returned : List TransactionReturn}
    (htally : Tally first transaction returned) (call : TransactionCall) :
    Tally first (transaction.step call).2 (returned ++ [(transaction.step call).1]) := by
  have hsent : 0 < transaction.requestsSent := by
    rw [htally.sent]
    omega
  have hstepped := transaction.stepped call hsent
  generalize (transaction.step call).1 = output at hstepped ⊢
  generalize (transaction.step call).2 = next at hstepped ⊢
  have hcount := htally.sent
  have hfailed := htally.failed
  cases hstepped with
  | quiet hreturned =>
    refine { htally with sent := ?_, failed := ?_, pending := fun h h' ↦ htally.pending ?_ ?_ }
    · rcases hreturned with rfl | rfl <;> simpa [TransactionReturn.retransmits] using hcount
    · rcases hreturned with rfl | rfl <;> simpa [List.count_append] using hfailed
    · exact fun hmem ↦ h (List.mem_append_left _ hmem)
    · exact fun hmem ↦ h' (List.mem_append_left _ hmem)
  | resent hcall hpending _ hlt =>
    refine { htally with sent := ?_, sent_le := ?_, failed := ?_, pending := fun _ _ ↦ hpending }
    · rw [hcount]
      simp [TransactionReturn.retransmits]
      omega
    · rw [htally.schedule] at hlt
      exact le_max_of_le_left hlt
    · simpa [List.count_append] using hfailed
  | failed hcall hpending =>
    refine { htally with sent := ?_, failed := ?_, pending := fun h ↦ absurd (by simp) h }
    · simpa [TransactionReturn.retransmits] using hcount
    · rw [hpending] at hfailed
      simpa [List.count_append] using hfailed
  | accepted hcall hpending =>
    refine { htally with sent := ?_, failed := ?_, pending := fun _ h ↦ absurd (by simp) h }
    · simpa [TransactionReturn.retransmits] using hcount
    · rw [hpending] at hfailed
      simpa [List.count_append] using hfailed

section Run

variable (id : TransactionId) (schedule : RetransmitSchedule) (start : ℕ)
  (calls : List TransactionCall)

/-- The transaction before a position. -/
def transactionAt (k : ℕ) : Transaction :=
  final Transaction.step (.start id schedule start) (calls.take k)

/-- What the calls return. -/
def transactionReturns : List TransactionReturn :=
  outputs Transaction.step (.start id schedule start) calls

theorem tally_take {k : ℕ} (hk : k ≤ calls.length) :
    Tally (.start id schedule start) (transactionAt id schedule start calls k)
      (outputs Transaction.step (.start id schedule start) (calls.take k)) := by
  refine run_take_induction (Tally (.start id schedule start))
    ⟨rfl, rfl, rfl, rfl, le_max_right _ _, rfl, fun _ _ ↦ rfl⟩ (fun k call _ htally ↦ ?_) hk
  exact htally.step call

theorem tally_at {k : ℕ} {call : TransactionCall} (hcall : calls[k]? = some call) :
    Tally (.start id schedule start) (transactionAt id schedule start calls k)
      (outputs Transaction.step (.start id schedule start) (calls.take k)) :=
  tally_take id schedule start calls (List.getElem?_eq_some_iff.mp hcall).1.le

/-- The transmissions of a transaction are on time, and it fails once. -/
structure OnTime : Prop where
  /-- The first request and the ones that are asked for. -/
  atMost : 1 + (transactionReturns id schedule start calls).countP TransactionReturn.retransmits ≤
    max schedule.rc 1
  /-- Request number `attempt`, counted from zero. -/
  notEarly : ∀ k count : ℕ, (transactionReturns id schedule start calls)[k]? =
      some (.polled (.retransmit count)) →
    ∃ attempt now, count = attempt + 1 ∧ attempt < schedule.rc ∧
      attempt = 1 + ((transactionReturns id schedule start calls).take k).countP
        TransactionReturn.retransmits ∧
      calls[k]? = some (.poll now) ∧ start + (2 ^ attempt - 1) * schedule.rtoTicks ≤ now
  failsAtMostOnce : (transactionReturns id schedule start calls).count (.polled .failed) ≤ 1
  failsNotEarly : ∀ k : ℕ, (transactionReturns id schedule start calls)[k]? =
      some (.polled .failed) →
    ∃ now, calls[k]? = some (.poll now) ∧ schedule.timeoutOffset ≤ now - start
  /-- A poll past the timeout finds that it has failed, or fails it, if nothing was accepted. -/
  fails : ∀ k now : ℕ, calls[k]? = some (.poll now) → schedule.timeoutOffset ≤ now - start →
    TransactionReturn.responded true ∉ (transactionReturns id schedule start calls).take k →
      (transactionReturns id schedule start calls).count (.polled .failed) = 1
  quiet : ∀ (j k : ℕ) (returned : TransactionReturn), j < k →
    ((transactionReturns id schedule start calls)[j]? = some (.polled .failed) ∨
      calls[j]? = some (.onResponse id)) →
    (transactionReturns id schedule start calls)[k]? = some returned →
      returned = .polled .wait ∨ returned = .responded false
  /-- The counter of requests stays in its 32 bits. -/
  counterFits : schedule.rc < 2 ^ 32 →
    ∀ k : ℕ, (transactionAt id schedule start calls k).requestsSent < 2 ^ 32

theorem stepped_at {k : ℕ} {call : TransactionCall} (hcall : calls[k]? = some call) :
    ∃ returned, (transactionReturns id schedule start calls)[k]? = some returned ∧
      Stepped (transactionAt id schedule start calls k) call returned
        (transactionAt id schedule start calls (k + 1)) := by
  have hsent := (tally_at id schedule start calls hcall).sent
  refine ⟨_, getElem?_outputs_of_eq _ hcall _, ?_⟩
  unfold transactionAt
  rw [final_take_succ _ hcall]
  exact Transaction.stepped _ call (by unfold transactionAt at hsent; omega)

/-- What came back at a position came back from a call, on the schedule of the start. -/
theorem stepped_of_returned {k : ℕ} {returned : TransactionReturn}
    (hreturned : (transactionReturns id schedule start calls)[k]? = some returned) :
    ∃ call, calls[k]? = some call ∧ (transactionAt id schedule start calls k).schedule = schedule ∧
      (transactionAt id schedule start calls k).startedTick = start ∧
      Stepped (transactionAt id schedule start calls k) call returned
        (transactionAt id schedule start calls (k + 1)) := by
  have hlt := (List.getElem?_eq_some_iff.mp hreturned).1
  rw [transactionReturns, length_outputs] at hlt
  have hcall := List.getElem?_eq_getElem hlt
  obtain ⟨other, hother, hstepped⟩ := stepped_at id schedule start calls hcall
  rw [hreturned] at hother
  cases hother
  have htally := tally_at id schedule start calls hcall
  exact ⟨_, hcall, htally.schedule, htally.startedTick, hstepped⟩

/-- A transaction that is settled stays settled. -/
theorem settled_of_le {j k : ℕ} (hjk : j ≤ k)
    (hsettled : (transactionAt id schedule start calls j).state ≠ .pending) :
    (transactionAt id schedule start calls k).state ≠ .pending := by
  unfold transactionAt at hsettled ⊢
  rw [final_take_of_le _ _ _ hjk]
  refine final_invariant (fun transaction : Transaction ↦ transaction.state ≠ .pending)
    (fun transaction call _ h ↦ ?_) hsettled
  rw [(Transaction.step_of_settled h call).2]
  exact h

theorem Stepped.settled {transaction next : Transaction} {call : TransactionCall}
    {returned : TransactionReturn} (hstepped : Stepped transaction call returned next)
    (hends : returned = .polled .failed ∨ call = .onResponse transaction.id) :
    next.state ≠ .pending := by
  cases hstepped with
  | quiet hreturned _ hother =>
    rcases hends with rfl | hcall
    · rcases hreturned with h | h <;> cases h
    · exact fun hpending ↦ hother hpending hcall
  | resent hcall =>
    rcases hends with h | h
    · cases h
    · rw [hcall] at h
      cases h
  | failed => exact fun h ↦ by cases h
  | accepted => exact fun h ↦ by cases h

/-- A failure is reported if a poll past the timeout finds the transaction pending. -/
theorem failed_of_late {k now : ℕ} (hcall : calls[k]? = some (.poll now))
    (hlate : schedule.timeoutOffset ≤ now - start)
    (hpending : (transactionAt id schedule start calls k).state = .pending) :
    (transactionReturns id schedule start calls)[k]? = some (.polled .failed) := by
  have htally := tally_at id schedule start calls hcall
  have hschedule : _ = schedule := htally.schedule
  have hstarted : _ = start := htally.startedTick
  obtain ⟨returned, hreturned, hstepped⟩ := stepped_at id schedule start calls hcall
  generalize transactionAt id schedule start calls (k + 1) = next at hstepped
  cases hstepped with
  | quiet _ hearly =>
    have h := hearly hpending now rfl
    rw [hschedule, hstarted] at h
    omega
  | resent hother _ hearly =>
    cases hother
    rw [hschedule, hstarted] at hearly
    omega
  | failed => exact hreturned
  | accepted hother => cases hother

/-- A retransmission is asked for by a poll, under the next number and when that request is due. -/
theorem resent_at {k count : ℕ} (hcount : (transactionReturns id schedule start calls)[k]? =
      some (.polled (.retransmit count))) :
    ∃ attempt now, count = attempt + 1 ∧ attempt < schedule.rc ∧
      attempt = 1 + ((transactionReturns id schedule start calls).take k).countP
        TransactionReturn.retransmits ∧
      calls[k]? = some (.poll now) ∧ start + (2 ^ attempt - 1) * schedule.rtoTicks ≤ now := by
  obtain ⟨call, hcall, hschedule, hstarted, hstepped⟩ :=
    stepped_of_returned id schedule start calls hcount
  have hsent := (tally_at id schedule start calls hcall).sent
  rw [outputs_take] at hsent
  generalize transactionAt id schedule start calls (k + 1) = next at hstepped
  cases hstepped with
  | quiet hreturned => rcases hreturned with h | h <;> cases h
  | resent hpoll _ _ hlt hdue =>
    rw [hschedule] at hlt hdue
    rw [hstarted] at hdue
    exact ⟨_, _, rfl, hlt, hsent, hcall.trans (congrArg some hpoll), hdue⟩

/-- A failure is reported by a poll past the timeout. -/
theorem late_of_failed {k : ℕ}
    (hfailed : (transactionReturns id schedule start calls)[k]? = some (.polled .failed)) :
    ∃ now, calls[k]? = some (.poll now) ∧ schedule.timeoutOffset ≤ now - start := by
  obtain ⟨call, hcall, hschedule, hstarted, hstepped⟩ :=
    stepped_of_returned id schedule start calls hfailed
  generalize transactionAt id schedule start calls (k + 1) = next at hstepped
  cases hstepped with
  | quiet hreturned => rcases hreturned with h | h <;> cases h
  | failed hpoll _ hlate =>
    rw [hschedule, hstarted] at hlate
    exact ⟨_, hcall.trans (congrArg some hpoll), hlate⟩

/-- A failure or an answer settles the transaction. -/
theorem settled_after {j : ℕ}
    (hends : (transactionReturns id schedule start calls)[j]? = some (.polled .failed) ∨
      calls[j]? = some (.onResponse id)) :
    (transactionAt id schedule start calls (j + 1)).state ≠ .pending := by
  rcases hends with hfailed | hresponse
  · obtain ⟨_, -, -, -, hstepped⟩ := stepped_of_returned id schedule start calls hfailed
    exact hstepped.settled (.inl rfl)
  · obtain ⟨_, -, hstepped⟩ := stepped_at id schedule start calls hresponse
    have hid : _ = id := (tally_at id schedule start calls hresponse).id
    exact hstepped.settled (.inr (by rw [hid]))

end Run

end SiphonRtp.Stun
