import SiphonRtp.Srtp.RtpContext

/-!
# Rollover estimation

What `StreamState.indexFor` guesses, in terms of the 48-bit index of the anchor.

`indexFor_cases` says what a call can do to the anchor: nothing, or move it to the packet, whose
index is then the new anchor's. Inside the index space the guess is a matter of plain arithmetic
(`indexFor_of_stays`): the anchor moves exactly for an index above it. `LeavesIndexSpace` names the
two guesses that are not, a decrement of the rollover counter at zero and an increment at its
maximum, where the 32-bit arithmetic wraps. `indexFor_of_near` is the property the estimation is
for: a packet less than `2¹⁵` away from the anchor is given its own index.
-/

set_option autoImplicit false

namespace SiphonRtp.Srtp

/-- The guess for `seq` wraps the 32-bit rollover counter: the packet reads as one from before the
previous wrap while there was none, or as one after a wrap that the counter has no room for. -/
def StreamState.LeavesIndexSpace (state : StreamState) (seq : UInt16) : Prop :=
  ∃ highest, state.highestSeq = some highest ∧
    ((highest.toNat < 32768 ∧ highest.toNat + 32768 < seq.toNat ∧ state.roc.toNat = 0) ∨
      (32768 ≤ highest.toNat ∧ seq.toNat + 32768 < highest.toNat ∧
        state.roc.toNat = 2 ^ 32 - 1))

/-- The 48-bit index of a stream's rollover anchor. -/
def StreamState.anchorIndex (state : StreamState) : Option ℕ :=
  state.highestSeq.map (packetIndex state.roc)

/-- `seq` moves the rollover anchor of the stream. -/
def StreamState.Advances (state : StreamState) (seq : UInt16) : Prop :=
  (state.indexFor seq).2 ≠ state

instance (state : StreamState) (seq : UInt16) : Decidable (state.Advances seq) :=
  inferInstanceAs (Decidable ((state.indexFor seq).2 ≠ state))

/-! ### The guess -/

theorem guessRoc_of_behind (roc : UInt32) {highest seq : UInt16} (hlow : highest.toNat < 32768)
    (hbehind : highest.toNat + 32768 < seq.toNat) : guessRoc roc highest seq = roc - 1 := by
  have hhighest : highest < 32768 := UInt16.lt_iff_toNat_lt.mpr hlow
  rw [guessRoc, if_pos hhighest, if_pos (by omega)]

theorem guessRoc_of_ahead (roc : UInt32) {highest seq : UInt16} (hhigh : 32768 ≤ highest.toNat)
    (hahead : seq.toNat + 32768 < highest.toNat) : guessRoc roc highest seq = roc + 1 := by
  have hhighest : ¬ highest < 32768 := fun hlt ↦ by
    have hlow : highest.toNat < 32768 := UInt16.lt_iff_toNat_lt.mp hlt
    omega
  rw [guessRoc, if_neg hhighest, if_pos (by omega)]

theorem guessRoc_of_level (roc : UInt32) {highest seq : UInt16}
    (hbehind : ¬ (highest.toNat < 32768 ∧ highest.toNat + 32768 < seq.toNat))
    (hahead : ¬ (32768 ≤ highest.toNat ∧ seq.toNat + 32768 < highest.toNat)) :
    guessRoc roc highest seq = roc := by
  have hhighest : highest < 32768 ↔ highest.toNat < 32768 := UInt16.lt_iff_toNat_lt
  unfold guessRoc
  split_ifs with hlow hold hnew
  · exact absurd ⟨hhighest.mp hlow, by omega⟩ hbehind
  · rfl
  · exact absurd ⟨by omega, by omega⟩ hahead
  · rfl

/-! ### The anchor -/

namespace StreamState

variable {state : StreamState} {seq : UInt16}

theorem indexFor_of_none (hfresh : state.highestSeq = none) :
    state.indexFor seq = ((seq.toNat, state.roc), { state with highestSeq := some seq }) := by
  simp only [indexFor, hfresh]

theorem indexFor_of_some {highest : UInt16} (hhighest : state.highestSeq = some highest) :
    state.indexFor seq =
      ((packetIndex (guessRoc state.roc highest seq) seq, guessRoc state.roc highest seq),
        if guessRoc state.roc highest seq = state.roc ∧ seq > highest then
          { state with highestSeq := some seq }
        else if guessRoc state.roc highest seq = state.roc + 1 then
          { state with roc := guessRoc state.roc highest seq, highestSeq := some seq }
        else state) := by
  simp only [indexFor, hhighest]

variable (seq) in
/-- A stream with an anchor is left alone, or its anchor moves to the packet. -/
theorem indexFor_cases {highest : UInt16} (hhighest : state.highestSeq = some highest) :
    (state.indexFor seq).1.1 = packetIndex (state.indexFor seq).1.2 seq ∧
      ((state.indexFor seq).2 = state ∨
        (state.indexFor seq).2 =
          { state with roc := (state.indexFor seq).1.2, highestSeq := some seq }) := by
  rw [indexFor_of_some hhighest]
  refine ⟨rfl, ?_⟩
  dsimp only
  split_ifs with hsame hnext
  · rw [hsame.1]
    exact Or.inr rfl
  · exact Or.inr rfl
  · exact Or.inl rfl

/-- Inside the index space the guess is one below, one above or at the rollover counter, without a
wrap of the 32-bit arithmetic. -/
theorem guessRoc_of_stays {highest : UInt16} (hhighest : state.highestSeq = some highest)
    (hstays : ¬ state.LeavesIndexSpace seq) :
    (highest.toNat + 32768 < seq.toNat ∧
        (guessRoc state.roc highest seq).toNat + 1 = state.roc.toNat) ∨
      (seq.toNat + 32768 < highest.toNat ∧
        (guessRoc state.roc highest seq).toNat = state.roc.toNat + 1) ∨
      (seq.toNat ≤ highest.toNat + 32768 ∧ highest.toNat ≤ seq.toNat + 32768 ∧
        guessRoc state.roc highest seq = state.roc) := by
  have hroc := state.roc.toNat_lt
  have hone : (1 : UInt32).toNat = 1 := rfl
  have hseq := seq.toNat_lt
  by_cases hbehind : highest.toNat < 32768 ∧ highest.toNat + 32768 < seq.toNat
  · have hzero : state.roc.toNat ≠ 0 := fun hzero ↦
      hstays ⟨highest, hhighest, Or.inl ⟨hbehind.1, hbehind.2, hzero⟩⟩
    refine Or.inl ⟨hbehind.2, ?_⟩
    rw [guessRoc_of_behind state.roc hbehind.1 hbehind.2, UInt32.toNat_sub]
    omega
  by_cases hahead : 32768 ≤ highest.toNat ∧ seq.toNat + 32768 < highest.toNat
  · have hmax : state.roc.toNat ≠ 2 ^ 32 - 1 := fun hmax ↦
      hstays ⟨highest, hhighest, Or.inr ⟨hahead.1, hahead.2, hmax⟩⟩
    refine Or.inr (Or.inl ⟨hahead.2, ?_⟩)
    rw [guessRoc_of_ahead state.roc hahead.1 hahead.2, UInt32.toNat_add]
    omega
  · exact Or.inr (Or.inr ⟨by omega, by omega, guessRoc_of_level state.roc hbehind hahead⟩)

/-- Inside the index space the anchor moves exactly for an index above it. -/
theorem indexFor_of_stays {highest : UInt16} (hhighest : state.highestSeq = some highest)
    (hstays : ¬ state.LeavesIndexSpace seq) :
    (packetIndex state.roc highest < (state.indexFor seq).1.1 ∧
        (state.indexFor seq).2 =
          { state with roc := (state.indexFor seq).1.2, highestSeq := some seq }) ∨
      ((state.indexFor seq).1.1 ≤ packetIndex state.roc highest ∧
        (state.indexFor seq).2 = state) := by
  have hseq := seq.toNat_lt
  have hlimit := highest.toNat_lt
  have hguess := guessRoc_of_stays hhighest hstays
  rw [indexFor_of_some hhighest, packetIndex_eq, packetIndex_eq]
  generalize guessRoc state.roc highest seq = guess at hguess ⊢
  have hsame : guess = state.roc ↔ guess.toNat = state.roc.toNat := UInt32.toNat_inj.symm
  have hnext : guess = state.roc + 1 → guess.toNat = (state.roc.toNat + 1) % 2 ^ 32 := by
    rintro rfl
    rw [UInt32.toNat_add]
    rfl
  have hnewer : seq > highest ↔ highest.toNat < seq.toNat := UInt16.lt_iff_toNat_lt
  have hroc := state.roc.toNat_lt
  dsimp only
  rcases hguess with ⟨hbehind, hdown⟩ | ⟨hahead, hup⟩ | ⟨-, -, rfl⟩
  · right
    rw [if_neg (fun hand ↦ by have := hsame.mp hand.1; omega),
      if_neg (fun heq ↦ by have := hnext heq; omega)]
    exact ⟨by omega, rfl⟩
  · left
    have heq : guess = state.roc + 1 := by
      rw [← UInt32.toNat_inj, UInt32.toNat_add]
      have hfits := guess.toNat_lt
      have hone : (1 : UInt32).toNat = 1 := rfl
      omega
    rw [if_neg (fun hand ↦ by have := hsame.mp hand.1; omega), if_pos heq]
    exact ⟨by omega, rfl⟩
  · by_cases hgt : seq > highest
    · have habove : highest.toNat < seq.toNat := hnewer.mp hgt
      left
      rw [if_pos ⟨rfl, hgt⟩]
      exact ⟨by omega, rfl⟩
    · have hbelow : seq.toNat ≤ highest.toNat := Nat.le_of_not_lt (mt hnewer.mpr hgt)
      right
      rw [if_neg (fun hand ↦ hgt hand.2), if_neg (fun heq ↦ by have := hnext heq; omega)]
      exact ⟨by omega, rfl⟩

/-! ### Packets near the anchor -/

section Near

variable {highest : UInt16} {index : ℕ} (hhighest : state.highestSeq = some highest)
  (hspace : index < 2 ^ 48) (hseq : seq.toNat = index % 2 ^ 16)
  (hbelow : index < packetIndex state.roc highest + 2 ^ 15)
  (habove : packetIndex state.roc highest < index + 2 ^ 15)

include hhighest hspace hseq hbelow habove

/-- A packet less than `2¹⁵` away from the anchor stays inside the index space. -/
theorem stays_of_near : ¬ state.LeavesIndexSpace seq := by
  rintro ⟨other, hother, hwraps⟩
  obtain rfl : highest = other := Option.some.inj (hhighest.symm.trans hother)
  rw [packetIndex_eq] at hbelow habove
  rcases hwraps with ⟨hlow, hbehind, hzero⟩ | ⟨hhigh, hahead, hmax⟩
  · omega
  · omega

/-- A packet less than `2¹⁵` away from the anchor is given its own index and rollover counter. -/
theorem indexFor_of_near :
    (state.indexFor seq).1 = (index, UInt32.ofNat (index / 2 ^ 16)) := by
  have hstays := stays_of_near hhighest hspace hseq hbelow habove
  have hguess := guessRoc_of_stays hhighest hstays
  have hlimit := highest.toNat_lt
  rw [packetIndex_eq] at hbelow habove
  have hroc : (guessRoc state.roc highest seq).toNat = index / 2 ^ 16 := by
    rcases hguess with ⟨hbehind, hdown⟩ | ⟨hahead, hup⟩ | ⟨hhigh, hlow, hsame⟩
    · omega
    · omega
    · rw [hsame]
      omega
  have heq : guessRoc state.roc highest seq = UInt32.ofNat (index / 2 ^ 16) := by
    rw [← hroc, UInt32.ofNat_toNat]
  rw [indexFor_of_some hhighest, Prod.mk.injEq]
  refine ⟨?_, heq⟩
  rw [packetIndex_eq]
  omega

end Near

end StreamState

/-! ### Packets in order -/

/-- The rollover state after a stream was sent in order up to position `position`, counted from the
sequence number zero before the first wrap. -/
def StreamState.sentUpTo (position : ℕ) : StreamState where
  roc := UInt32.ofNat (position / 2 ^ 16)
  highestSeq := some (UInt16.ofNat position)

theorem packetIndex_ofNat (position : ℕ) :
    packetIndex (UInt32.ofNat (position / 2 ^ 16)) (UInt16.ofNat position) = position % 2 ^ 48 := by
  have hroc : (UInt32.ofNat (position / 2 ^ 16)).toNat = position / 2 ^ 16 % 2 ^ 32 :=
    UInt32.toNat_ofNat'
  have hseq : (UInt16.ofNat position).toNat = position % 2 ^ 16 := UInt16.toNat_ofNat'
  rw [packetIndex_eq]
  omega

/-- The guess for the next sequence number in order: the counter moves with the wrap, modulo
`2³²`. -/
theorem guessRoc_succ (position : ℕ) :
    guessRoc (UInt32.ofNat (position / 2 ^ 16)) (UInt16.ofNat position)
      (UInt16.ofNat (position + 1)) = UInt32.ofNat ((position + 1) / 2 ^ 16) := by
  have hhighest : (UInt16.ofNat position).toNat = position % 2 ^ 16 := UInt16.toNat_ofNat'
  have hseq : (UInt16.ofNat (position + 1)).toNat = (position + 1) % 2 ^ 16 := UInt16.toNat_ofNat'
  by_cases hwrap : position % 2 ^ 16 = 2 ^ 16 - 1
  · have hroc : (position + 1) / 2 ^ 16 = position / 2 ^ 16 + 1 := by omega
    rw [guessRoc_of_ahead _ (by omega) (by omega), hroc, UInt32.ofNat_add]
    rfl
  · have hroc : (position + 1) / 2 ^ 16 = position / 2 ^ 16 := by omega
    rw [guessRoc_of_level _ (by omega) (by omega), hroc]

/-- Sending the next packet in order gives it the next index modulo `2⁴⁸`. -/
theorem StreamState.indexFor_sentUpTo (position : ℕ) :
    (sentUpTo position).indexFor (UInt16.ofNat (position + 1)) =
      (((position + 1) % 2 ^ 48, UInt32.ofNat ((position + 1) / 2 ^ 16)),
        sentUpTo (position + 1)) := by
  rw [indexFor_of_some rfl]
  simp only [sentUpTo, guessRoc_succ, packetIndex_ofNat]
  by_cases hwrap : position % 2 ^ 16 = 2 ^ 16 - 1
  · have hroc : UInt32.ofNat ((position + 1) / 2 ^ 16) = UInt32.ofNat (position / 2 ^ 16) + 1 := by
      have hup : (position + 1) / 2 ^ 16 = position / 2 ^ 16 + 1 := by omega
      rw [hup, UInt32.ofNat_add]
      rfl
    rw [if_neg, if_pos hroc]
    rintro ⟨-, hnewer⟩
    have hlt := UInt16.lt_iff_toNat_lt.mp hnewer
    rw [UInt16.toNat_ofNat', UInt16.toNat_ofNat'] at hlt
    omega
  · have hroc : (position + 1) / 2 ^ 16 = position / 2 ^ 16 := by omega
    rw [if_pos, hroc]
    refine ⟨by rw [hroc], UInt16.lt_iff_toNat_lt.mpr ?_⟩
    rw [UInt16.toNat_ofNat', UInt16.toNat_ofNat']
    omega

end SiphonRtp.Srtp
