import Mathlib.Data.Set.Card

/-!
# The pulse vector codebook

`siphon-rtp-codec/src/opus/celt/pvq.rs`: the vectors of `n` integers with magnitudes that sum to `k`
are numbered, and both directions walk the rows of one table in place (`row`), the encoder from the
last coordinate to the first and the decoder back.

The arithmetic is that of 32-bit words. What a word makes of a sum or a difference out of its range
is a parameter, `wrap`, and the results hold whatever it is, as long as it keeps what is in range
(`Keeps`): no value out of range is ever used. `wrapU32` is the arithmetic of the source. The
decoder's sum of squares, a float, is left out.
-/

set_option autoImplicit false

namespace SiphonRtp.Codec.Pvq

/-! ### The source -/

/-- `wrapping_add` and `wrapping_sub` of 32-bit words, from the exact result. -/
def wrapU32 (exact : ℤ) : ℕ := (exact % 2 ^ 32).toNat

section Source

variable (wrap : ℤ → ℕ)

/-- The loop of `unext`, from the slot it writes next. -/
def unextFrom : ℕ → List ℕ → List ℕ
  | u0, slot :: next :: rest => u0 :: unextFrom (wrap (wrap (next + slot) + u0)) (next :: rest)
  | u0, [_] => [u0]
  | _, [] => []

/-- `unext`. -/
def unext (u : List ℕ) (len u0 : ℕ) : List ℕ := unextFrom wrap u0 (u.take len) ++ u.drop len

/-- The loop of `uprev`, from the slot it writes next. -/
def uprevFrom : ℕ → List ℕ → List ℕ
  | u0, slot :: next :: rest => u0 :: uprevFrom (wrap (wrap (next - slot) - u0)) (next :: rest)
  | u0, [_] => [u0]
  | _, [] => []

/-- `uprev`. -/
def uprev (u : List ℕ) (n u0 : ℕ) : List ℕ := uprevFrom wrap u0 (u.take n) ++ u.drop n

/-- The slots that `ncwrs_urow` and `icwrs` fill first. -/
def secondRow (len : ℕ) : List ℕ := (List.range len).map fun kk ↦ 2 * kk - 1

/-- `ncwrs_urow`: the row, and the size of the codebook. -/
def ncwrsUrow (n k : ℕ) : List ℕ × ℕ :=
  let u := (fun u ↦ u.take 1 ++ unext wrap (u.drop 1) (k + 1) 1)^[n - 2] (secondRow (k + 2))
  (u, wrap (u.getD k 0 + u.getD (k + 1) 0))

/-- The inner loop of `cwrsi`: down to the slot that is not above the index. -/
def descend (u : List ℕ) (i : ℕ) : ℕ → ℕ
  | 0 => 0
  | k + 1 => if i < u.getD (k + 1) 0 then descend u i k else k + 1

/-- `cwrsi`, by the coordinates that are left. The mask `s` of the source is -1 when `negative`, and
`(x + s) ^ s` is then `-x`. -/
def cwrsi : ℕ → ℕ → ℕ → List ℕ → List ℤ
  | 0, _, _, _ => []
  | n + 1, k, i, u =>
    let p := u.getD (k + 1) 0
    let negative := p ≤ i
    let i := wrap (i - (if negative then p else 0 : ℕ))
    let k' := descend u i k
    let i := wrap (i - u.getD k' 0)
    let val : ℤ := if negative then -(k - k') else k - k'
    val :: cwrsi n k' i (uprev wrap u (k' + 2) 0)

/-- `icwrs1`. -/
def icwrs1 (y0 : ℤ) : ℕ × ℕ := (y0.natAbs, if y0 < 0 then 1 else 0)

/-- One coordinate of `icwrs`: the pulses and the index. -/
def addCoordinate (u : List ℕ) (k i : ℕ) (y : ℤ) : ℕ × ℕ :=
  let i := wrap (i + u.getD k 0)
  let k := k + y.natAbs
  (k, if y < 0 then wrap (i + u.getD (k + 1) 0) else i)

/-- The loop of `icwrs`, over the coordinates that are left, from the last. -/
def icwrsLoop (kMax : ℕ) : List ℤ → List ℕ → ℕ → ℕ → List ℕ × ℕ × ℕ
  | [], u, k, i => (u, k, i)
  | y :: rest, u, k, i =>
    let u := unext wrap u (kMax + 2) 0
    let (k, i) := addCoordinate wrap u k i y
    icwrsLoop kMax rest u k i

/-- `icwrs`, for two coordinates or more: the size of the codebook, and the index. -/
def icwrs (kMax : ℕ) (y : List ℤ) : ℕ × ℕ :=
  match y.reverse with
  | last :: before :: rest =>
    let u := secondRow (kMax + 2)
    let (k, i) := icwrs1 last
    let (k, i) := addCoordinate wrap u k i before
    let (u, k, i) := icwrsLoop wrap kMax rest u k i
    (wrap (u.getD k 0 + u.getD (k + 1) 0), i)
  | _ => (0, 0)

end Source

/-! ### The table -/

/-- The row of the table for one coordinate more than `n`: the vectors of `n + 1` coordinates and
`k` pulses that begin with a positive one. -/
def row : ℕ → ℕ → ℕ
  | _, 0 => 0
  | 0, _ + 1 => 1
  | n + 1, k + 1 => row n (k + 1) + row (n + 1) k + row n k

/-- The size of the codebook. -/
def size : ℕ → ℕ → ℕ
  | 0, k => if k = 0 then 1 else 0
  | n + 1, k => row n k + row n (k + 1)

@[simp] theorem row_zero (n : ℕ) : row n 0 = 0 := by
  rw [row]

theorem row_rec (n k : ℕ) : row (n + 1) (k + 1) = row n (k + 1) + row (n + 1) k + row n k :=
  row.eq_3 n k

theorem row_succ (n k : ℕ) : row n (k + 1) = row n k + size n k := by
  cases n with
  | zero => cases k <;> simp [row, size]
  | succ n =>
    rw [row, size]
    omega

theorem row_mono (n : ℕ) : Monotone (row n) :=
  monotone_nat_of_le_succ fun k ↦ by
    rw [row_succ]
    exact Nat.le_add_right _ _

theorem row_one (k : ℕ) : row 1 k = 2 * k - 1 := by
  induction k with
  | zero => exact row_zero 1
  | succ k ih =>
    rw [row_succ, ih, size]
    cases k with
    | zero => simp [row]
    | succ k =>
      simp only [row]
      omega

theorem row_mono_left {n n' : ℕ} (hn : n ≤ n') (k : ℕ) : row n k ≤ row n' k := by
  have hstep (n : ℕ) : row n k ≤ row (n + 1) k := by
    cases k with
    | zero => rw [row_zero, row_zero]
    | succ k =>
      rw [row_rec]
      omega
  exact monotone_nat_of_le_succ hstep hn

def pulses (y : List ℤ) : ℕ := (y.map Int.natAbs).sum

/-- The number of a vector. -/
def index : List ℤ → ℕ
  | [] => 0
  | y :: rest =>
    index rest + row rest.length (pulses rest) +
      if y < 0 then row rest.length (pulses (y :: rest) + 1) else 0

theorem pulses_cons (y : ℤ) (rest : List ℤ) : pulses (y :: rest) = y.natAbs + pulses rest := rfl

theorem pulses_append (first second : List ℤ) :
    pulses (first ++ second) = pulses first + pulses second := by
  rw [pulses, List.map_append, List.sum_append]
  rfl

/-- Numbers are below the size of the codebook. -/
theorem index_lt (y : List ℤ) : index y < size y.length (pulses y) := by
  induction y with
  | nil => decide
  | cons y rest ih =>
    have hblock := row_succ rest.length (pulses rest)
    rw [index, List.length_cons, size]
    have hkept : row rest.length (pulses rest + 1) ≤ row rest.length (pulses (y :: rest) + 1) :=
      row_mono _ (by rw [pulses_cons]; omega)
    split_ifs with hneg
    · have hpulse : row rest.length (pulses rest + 1) ≤ row rest.length (pulses (y :: rest)) :=
        row_mono _ (by rw [pulses_cons]; omega)
      omega
    · omega

/-! ### Rows in place -/

/-- The arithmetic is exact below a limit. -/
def Keeps (wrap : ℤ → ℕ) (limit : ℕ) : Prop := ∀ exact : ℕ, exact < limit → wrap exact = exact

theorem keeps_wrapU32 : Keeps wrapU32 (2 ^ 32) := by
  intro exact hexact
  rw [wrapU32]
  omega

/-- The slots from `first` on hold the table's row. -/
def slots (n first len : ℕ) : List ℕ := (List.range' first len).map (row n)

theorem slots_succ (n first len : ℕ) :
    slots n first (len + 1) = row n first :: slots n (first + 1) len := by
  simp [slots, List.range'_succ]

@[simp] theorem length_slots (n first len : ℕ) : (slots n first len).length = len := by
  simp [slots]

theorem getD_slots_append {n len position : ℕ} (rest : List ℕ) (hposition : position < len) :
    (slots n 0 len ++ rest).getD position 0 = row n position := by
  simp [slots, List.getElem?_append_left, hposition]

theorem getD_slots {n len position : ℕ} (hposition : position < len) :
    (slots n 0 len).getD position 0 = row n position := by
  rw [← List.append_nil (slots n 0 len), getD_slots_append [] hposition]

theorem secondRow_eq (len : ℕ) : secondRow len = slots 1 0 len := by
  rw [secondRow, List.range_eq_range']
  exact List.map_congr_left fun kk _ ↦ (row_one kk).symm

theorem row_at_one (n : ℕ) : row n 1 = 1 := by
  induction n with
  | zero => simp [row]
  | succ n ih => rw [row_rec, ih, row_zero, row_zero]

theorem row_le_size {n n' k k' : ℕ} (hn : n ≤ n') (hk : k ≤ k' + 1) :
    row n k ≤ size (n' + 1) k' := by
  have hlater := row_mono_left hn k
  have hmore := row_mono n' hk
  rw [size]
  omega

theorem size_le_size {n n' k k' : ℕ} (hn : n ≤ n') (hk : k ≤ k') :
    size (n + 1) k ≤ size (n' + 1) k' := by
  exact Nat.add_le_add ((row_mono_left hn k).trans (row_mono n' hk))
    ((row_mono_left hn (k + 1)).trans (row_mono n' (Nat.succ_le_succ hk)))

theorem slots_split {n len len' : ℕ} (hle : len ≤ len') :
    ∃ more, slots n 0 len' = slots n 0 len ++ more := by
  obtain ⟨more, rfl⟩ := Nat.exists_eq_add_of_le hle
  refine ⟨slots n len more, ?_⟩
  rw [slots, slots, slots, ← List.map_append, ← List.range'_append_1, Nat.zero_add]

/-- The inner loop finds the block of the index. -/
theorem descend_spec {n k : ℕ} {u : List ℕ}
    (hu : ∀ position ≤ k, u.getD position 0 = row n position)
    (i : ℕ) : descend u i k ≤ k ∧ row n (descend u i k) ≤ i ∧
      (descend u i k = k ∨ i < row n (descend u i k + 1)) := by
  induction k with
  | zero => exact ⟨le_rfl, by rw [descend, row_zero]; exact Nat.zero_le i, .inl rfl⟩
  | succ k ih =>
    rw [descend, hu (k + 1) le_rfl]
    split_ifs with habove
    · obtain ⟨hle, hlow, hhigh⟩ := ih fun position hposition ↦ hu position (by omega)
      refine ⟨by omega, hlow, .inr ?_⟩
      rcases hhigh with hlast | hhigh
      · rwa [hlast]
      · exact hhigh
    · exact ⟨le_rfl, by omega, .inl rfl⟩

/-- The block of an index without its sign: below the next block, and with a pulse left for the
sign where there is one. -/
theorem block_of_index {m k k' i bare : ℕ} (hi : i < size (m + 1) k)
    (hbare : bare = i - if row m (k + 1) ≤ i then row m (k + 1) else 0) (hle : k' ≤ k)
    (hlow : row m k' ≤ bare) (hhigh : k' = k ∨ bare < row m (k' + 1)) :
    bare < row m (k' + 1) ∧ (row m (k + 1) ≤ i → k' < k) := by
  rw [size] at hi
  rcases hhigh with rfl | hhigh
  · split_ifs at hbare with hneg
    · omega
    · exact ⟨by omega, fun h ↦ absurd h hneg⟩
  · refine ⟨hhigh, fun hneg ↦ lt_of_le_of_ne hle ?_⟩
    rintro rfl
    rw [if_pos hneg] at hbare
    omega

section Arithmetic

variable {wrap : ℤ → ℕ} {limit : ℕ} (hwrap : Keeps wrap limit)

include hwrap

theorem Keeps.add {first second : ℕ} (hsum : first + second < limit) :
    wrap (first + second : ℤ) = first + second := by
  rw [← Nat.cast_add, hwrap _ hsum]

theorem Keeps.sub {first second : ℕ} (hle : second ≤ first) (hfirst : first < limit) :
    wrap (first - second : ℤ) = first - second := by
  rw [← Nat.cast_sub hle, hwrap _ (by omega)]

/-- Stepping a row forward, in place. -/
theorem unextFrom_slots (n first len : ℕ) (hrange : row (n + 1) (first + len) < limit) :
    unextFrom wrap (row (n + 1) first) (slots n first (len + 1)) =
      slots (n + 1) first (len + 1) := by
  induction len generalizing first with
  | zero => rfl
  | succ len ih =>
    have hnext := row_rec n first
    have hbound : row (n + 1) (first + 1) < limit :=
      (row_mono _ (by omega)).trans_lt hrange
    have hsum := hwrap.add (show row n (first + 1) + row n first < limit by omega)
    have hsum' := hwrap.add
      (show row n (first + 1) + row n first + row (n + 1) first < limit by omega)
    have hnew : wrap (wrap (row n (first + 1) + row n first) + row (n + 1) first) =
        row (n + 1) (first + 1) := by
      rw [hsum]
      omega
    have hlater := ih (first + 1) (by rwa [Nat.add_right_comm])
    rw [slots_succ n first, slots_succ n (first + 1), unextFrom, hnew, ← slots_succ n (first + 1),
      hlater, slots_succ (n + 1) first]

/-- Stepping a row back, in place. -/
theorem uprevFrom_slots (n first len : ℕ) (hrange : row (n + 1) (first + len) < limit) :
    uprevFrom wrap (row n first) (slots (n + 1) first (len + 1)) = slots n first (len + 1) := by
  induction len generalizing first with
  | zero => rfl
  | succ len ih =>
    have hnext := row_rec n first
    have hbound : row (n + 1) (first + 1) < limit :=
      (row_mono _ (by omega)).trans_lt hrange
    have hsub := hwrap.sub (show row (n + 1) first ≤ row (n + 1) (first + 1) by omega) hbound
    have hsub' :=
      hwrap.sub (show row n first ≤ row (n + 1) (first + 1) - row (n + 1) first by omega)
      (by omega)
    have hnew : wrap (wrap (row (n + 1) (first + 1) - row (n + 1) first) - row n first) =
        row n (first + 1) := by
      rw [hsub]
      omega
    have hlater := ih (first + 1) (by rwa [Nat.add_right_comm])
    rw [slots_succ (n + 1) first, slots_succ (n + 1) (first + 1), uprevFrom, hnew,
      ← slots_succ (n + 1) (first + 1), hlater, slots_succ n first]

theorem unext_slots {n len : ℕ} (rest : List ℕ) (hrange : row (n + 1) len < limit) :
    unext wrap (slots n 0 (len + 1) ++ rest) (len + 1) 0 = slots (n + 1) 0 (len + 1) ++ rest := by
  have hstep := unextFrom_slots hwrap n 0 len (by rwa [Nat.zero_add])
  rw [row_zero] at hstep
  rw [unext, List.take_left' (length_slots n 0 _), List.drop_left' (length_slots n 0 _), hstep]

theorem uprev_slots {n len : ℕ} (rest : List ℕ) (hrange : row (n + 1) len < limit) :
    uprev wrap (slots (n + 1) 0 (len + 1) ++ rest) (len + 1) 0 = slots n 0 (len + 1) ++ rest := by
  have hstep := uprevFrom_slots hwrap n 0 len (by rwa [Nat.zero_add])
  rw [row_zero] at hstep
  rw [uprev, List.take_left' (length_slots _ 0 _), List.drop_left' (length_slots _ 0 _), hstep]

/-- The rows that the size is read from. -/
theorem ncwrsUrow_eq {n k : ℕ} (hsize : size (n + 2) k < limit) :
    ncwrsUrow wrap (n + 2) k = (slots (n + 1) 0 (k + 2), size (n + 2) k) := by
  have hrow (steps : ℕ) (hsteps : steps ≤ n) :
      (fun u ↦ u.take 1 ++ unext wrap (u.drop 1) (k + 1) 1)^[steps] (secondRow (k + 2)) =
        slots (steps + 1) 0 (k + 2) := by
    induction steps with
    | zero => rw [Function.iterate_zero_apply, secondRow_eq]
    | succ steps ih =>
      have hbound : row (steps + 2) (1 + k) < limit := by
        exact (row_le_size (show steps + 2 ≤ n + 1 by omega) (by omega)).trans_lt hsize
      have hstep := unextFrom_slots hwrap (steps + 1) 1 k hbound
      rw [row_at_one] at hstep
      rw [Function.iterate_succ_apply', ih (by omega), slots_succ]
      simp only [List.drop_succ_cons, List.drop_zero, unext]
      rw [List.take_of_length_le (length_slots _ _ _).le,
        List.drop_of_length_le (length_slots _ _ _).le, hstep, slots_succ (steps + 1 + 1) 0,
        row_zero, row_zero, List.append_nil]
      rfl
  have hslots := hrow n le_rfl
  simp only [ncwrsUrow, Nat.add_sub_cancel, hslots]
  rw [getD_slots (by omega), getD_slots (by omega), hwrap.add hsize]
  rfl

/-- The decoder finds the vector with the number. -/
theorem cwrsi_spec (n k i : ℕ) (hi : i < size n k) (hsize : size n k < limit) {u : List ℕ}
    (hu : ∀ m, n = m + 1 → ∃ rest, u = slots m 0 (k + 2) ++ rest) :
    (cwrsi wrap n k i u).length = n ∧ pulses (cwrsi wrap n k i u) = k ∧
      index (cwrsi wrap n k i u) = i := by
  induction n generalizing k i u with
  | zero =>
    rw [size] at hi
    split_ifs at hi with hk
    · exact ⟨rfl, hk.symm, (Nat.lt_one_iff.mp hi).symm⟩
    · exact absurd hi (Nat.not_lt_zero i)
  | succ m ih =>
    obtain ⟨rest, rfl⟩ := hu m rfl
    have hrow {position : ℕ} (hposition : position ≤ k + 1) :
        (slots m 0 (k + 2) ++ rest).getD position 0 = row m position :=
      getD_slots_append rest (by omega)
    have hsplit : size (m + 1) k = row m k + row m (k + 1) := rfl
    -- The index without the sign.
    obtain ⟨bare, hbare, hbareEq⟩ : ∃ bare,
        wrap (i - (if row m (k + 1) ≤ i then row m (k + 1) else 0 : ℕ)) = bare ∧
          bare = i - if row m (k + 1) ≤ i then row m (k + 1) else 0 := by
      refine ⟨_, rfl, hwrap.sub ?_ (by omega)⟩
      split_ifs
      · assumption
      · exact Nat.zero_le i
    obtain ⟨hle, hlow, hhigh⟩ := @descend_spec m k _ (fun _ hposition ↦ hrow (by omega)) bare
    obtain ⟨k', hk'⟩ : ∃ k', descend (slots m 0 (k + 2) ++ rest) bare k = k' := ⟨_, rfl⟩
    rw [hk'] at hle hlow hhigh
    have hinner : wrap (bare - row m k') = bare - row m k' := hwrap.sub hlow (by omega)
    have hblock := block_of_index hi hbareEq hle hlow hhigh
    have hsucc := row_succ m k'
    have hgrow := row_mono m (show k' + 1 ≤ k + 1 by omega)
    obtain ⟨hlength, hpulses, hindex⟩ := @ih k' (bare - row m k') (by omega) (by omega)
      (uprev wrap (slots m 0 (k + 2) ++ rest) (k' + 2) 0) (by
        rintro m rfl
        obtain ⟨more, hmore⟩ := @slots_split (m + 1) (k' + 2) (k + 2) (by omega)
        rw [hmore, List.append_assoc, uprev_slots hwrap _ (by omega)]
        exact ⟨_, rfl⟩)
    rw [cwrsi]
    simp only [hrow le_rfl, hbare, hk', hrow (show k' ≤ k + 1 by omega), hinner, List.length_cons,
      hlength, pulses_cons, hpulses, index, hindex, true_and]
    by_cases hneg : row m (k + 1) ≤ i
    · have hsum : (-((k : ℤ) - k')).natAbs + k' = k := by omega
      rw [if_pos hneg] at hbareEq
      rw [if_pos hneg, hsum, if_pos (by omega)]
      omega
    · have hsum : ((k : ℤ) - k').natAbs + k' = k := by omega
      rw [if_neg hneg] at hbareEq
      rw [if_neg hneg, hsum, if_neg (by omega)]
      omega

/-- One coordinate in front of those the encoder has taken. -/
theorem addCoordinate_spec {kMax : ℕ} {y : ℤ} {taken : List ℤ}
    (hpulses : pulses (y :: taken) ≤ kMax) (hsize : size (taken.length + 1) kMax < limit) :
    addCoordinate wrap (slots taken.length 0 (kMax + 2)) (pulses taken) (index taken) y =
      (pulses (y :: taken), index (y :: taken)) := by
  have hbound : index (y :: taken) < limit :=
    ((index_lt _).trans_le (size_le_size le_rfl hpulses)).trans hsize
  have hcomm : pulses taken + y.natAbs = pulses (y :: taken) := Nat.add_comm _ _
  rw [index] at hbound ⊢
  simp only [addCoordinate, hcomm, getD_slots (show pulses taken < kMax + 2 by omega),
    getD_slots (show pulses (y :: taken) + 1 < kMax + 2 by omega)]
  have hindex := hwrap.add (show index taken + row taken.length (pulses taken) < limit by omega)
  rw [hindex]
  split_ifs at hbound ⊢ with hneg
  · rw [← Nat.cast_add, Nat.cast_add, hwrap.add hbound]
  · rw [Nat.add_zero]

/-- The coordinates of the encoder, from the last, in front of those it has taken. -/
theorem icwrsLoop_spec {kMax : ℕ} (left : List ℤ) {n : ℕ} {taken : List ℤ}
    (htaken : taken.length = n + 1) (hpulses : pulses (left.reverse ++ taken) ≤ kMax)
    (hsize : size (n + left.length + 1) kMax < limit) :
    icwrsLoop wrap kMax left (slots n 0 (kMax + 2)) (pulses taken) (index taken) =
      (slots (n + left.length) 0 (kMax + 2), pulses (left.reverse ++ taken),
        index (left.reverse ++ taken)) := by
  induction left generalizing n taken with
  | nil => rfl
  | cons y left ih =>
    rw [List.length_cons] at hsize ⊢
    have hfirst : pulses (y :: taken) ≤ kMax := by
      rw [List.reverse_cons, List.append_assoc, List.singleton_append, pulses_append] at hpulses
      omega
    have hrow : row (n + 1) (kMax + 1) < limit :=
      (row_le_size (show n + 1 ≤ n + (left.length + 1) by omega) le_rfl).trans_lt hsize
    have hnext : unext wrap (slots n 0 (kMax + 2)) (kMax + 2) 0 = slots (n + 1) 0 (kMax + 2) := by
      have hstep := unext_slots hwrap [] hrow
      rwa [List.append_nil, List.append_nil] at hstep
    have hadd := @addCoordinate_spec wrap limit hwrap kMax y taken hfirst (by
      exact (size_le_size (by omega) le_rfl).trans_lt hsize)
    rw [htaken] at hadd
    rw [icwrsLoop, hnext, hadd]
    have hlater := @ih (n + 1) (y :: taken) (congrArg (· + 1) htaken) (by
      rwa [List.reverse_cons, List.append_assoc] at hpulses) (by
        rwa [Nat.add_right_comm n])
    dsimp only
    rw [hlater, List.reverse_cons, List.append_assoc, List.singleton_append, Nat.add_right_comm n,
      Nat.add_assoc n]

/-- The encoder computes the number of the vector. -/
theorem icwrs_spec {y : List ℤ} (hlength : 2 ≤ y.length)
    (hsize : size y.length (pulses y) < limit) :
    icwrs wrap (pulses y) y = (size y.length (pulses y), index y) := by
  obtain ⟨last, before, left, hreverse⟩ : ∃ last before left,
      y.reverse = last :: before :: left := by
    have hcount : y.reverse.length = y.length := List.length_reverse
    rcases hy : y.reverse with _ | ⟨last, _ | ⟨before, left⟩⟩
    · rw [hy, List.length_nil] at hcount
      omega
    · rw [hy, List.length_singleton] at hcount
      omega
    · exact ⟨last, before, left, rfl⟩
  have hparts : y = left.reverse ++ [before, last] := by
    rw [← List.reverse_reverse y, hreverse]
    simp
  obtain ⟨kMax, hkMax⟩ : ∃ kMax, pulses y = kMax := ⟨_, rfl⟩
  have hlengths : y.length = left.length + 1 + 1 := by
    rw [hparts]
    simp
  rw [hkMax] at hsize ⊢
  rw [hlengths] at hsize ⊢
  have hpulses : pulses (left.reverse ++ [before, last]) = kMax := hparts ▸ hkMax
  have hone : icwrs1 last = (pulses [last], index [last]) := by
    simp [icwrs1, pulses, index, row]
  have hbefore : pulses [before, last] ≤ kMax := by
    rw [pulses_append] at hpulses
    omega
  have hadd := @addCoordinate_spec wrap limit hwrap kMax before [last] hbefore
    ((size_le_size (by simp) le_rfl).trans_lt hsize)
  have hloop := @icwrsLoop_spec wrap limit hwrap kMax left 1 [before, last] rfl hpulses.le (by
    rwa [Nat.add_comm 1])
  simp only [icwrs, hreverse, secondRow_eq, hone]
  rw [show ([last] : List ℤ).length = 1 from rfl] at hadd
  rw [hadd]
  rw [hloop]
  dsimp only
  rw [hpulses, getD_slots (by omega), getD_slots (by omega), Nat.add_comm 1, hwrap.add hsize,
    ← hparts]
  rfl

end Arithmetic

/-! ### The codebook -/

/-- The vectors of a codebook. -/
def Vectors (n k : ℕ) : Set (List ℤ) := {y | y.length = n ∧ pulses y = k}

/-- The number of integer vectors of `n` coordinates whose magnitudes sum to `k`. -/
noncomputable def codebookSize (n k : ℕ) : ℕ := (Vectors n k).ncard

/-- Different vectors have different numbers. -/
theorem index_injOn (n k : ℕ) : Set.InjOn index (Vectors n k) := by
  induction n generalizing k with
  | zero =>
    rintro y ⟨hy, -⟩ y' ⟨hy', -⟩ -
    rw [List.length_eq_zero_iff.mp hy, List.length_eq_zero_iff.mp hy']
  | succ n ih =>
    rintro y ⟨hlength, hk⟩ y' ⟨hlength', hk'⟩ hindex
    obtain ⟨y, rest, rfl⟩ := List.exists_cons_of_length_eq_add_one hlength
    obtain ⟨y', rest', rfl⟩ := List.exists_cons_of_length_eq_add_one hlength'
    rw [List.length_cons, Nat.add_right_cancel_iff] at hlength hlength'
    have hblock (rest : List ℤ) (hlength : rest.length = n) :
        row n (pulses rest) ≤ index rest + row n (pulses rest) ∧
          index rest + row n (pulses rest) < row n (pulses rest + 1) := by
      have hlt := index_lt rest
      rw [hlength] at hlt
      rw [row_succ]
      omega
    obtain ⟨hlow, hhigh⟩ := hblock rest hlength
    obtain ⟨hlow', hhigh'⟩ := hblock rest' hlength'
    rw [index, index, hk, hk', hlength, hlength'] at hindex
    rw [pulses_cons] at hk hk'
    have hgrow := row_mono n (show pulses rest + 1 ≤ k + 1 by omega)
    have hgrow' := row_mono n (show pulses rest' + 1 ≤ k + 1 by omega)
    have hbare : index rest + row n (pulses rest) = index rest' + row n (pulses rest') ∧
        (y < 0 ↔ y' < 0) := by
      split_ifs at hindex with hneg hneg' hneg'
      · exact ⟨by omega, by omega⟩
      · omega
      · omega
      · exact ⟨by omega, by omega⟩
    have hle :=
      (row_mono n).reflect_lt (show row n (pulses rest) < row n (pulses rest' + 1) by omega)
    have hge :=
      (row_mono n).reflect_lt (show row n (pulses rest') < row n (pulses rest + 1) by omega)
    have hpulses : pulses rest = pulses rest' := by omega
    rw [hpulses] at hbare
    obtain rfl := ih (pulses rest') ⟨hlength, hpulses⟩ ⟨hlength', rfl⟩ (by omega)
    obtain rfl : y = y' := by omega
    rfl

theorem codebookSize_eq (n k : ℕ) : codebookSize n k = size n k := by
  have hdecode (i : ℕ) (hi : i < size n k) :=
    @cwrsi_spec Int.toNat (size n k + 1) (fun _ _ ↦ rfl) n k i hi (Nat.lt_succ_self _)
      (slots (n - 1) 0 (k + 2)) (by
        rintro m rfl
        exact ⟨[], (List.append_nil _).symm⟩)
  refine Set.ncard_eq_of_bijective
    (fun i _ ↦ cwrsi Int.toNat n k i (slots (n - 1) 0 (k + 2))) ?_ ?_ ?_
  · rintro y ⟨rfl, rfl⟩
    refine ⟨index y, index_lt y, ?_⟩
    obtain ⟨hlength, hpulses, hindex⟩ := hdecode (index y) (index_lt y)
    exact index_injOn _ _ ⟨hlength, hpulses⟩ ⟨rfl, rfl⟩ hindex
  · exact fun i hi ↦ ⟨(hdecode i hi).1, (hdecode i hi).2.1⟩
  · intro i j hi hj heq
    rw [← (hdecode i hi).2.2, heq, (hdecode j hj).2.2]

/-- PVQ indexing is a bijection. Assumes: two dimensions at least, 1 to 128 pulses, and a codebook
whose size fits 32 bits. Encoder and decoder are inverse to each other between the vectors and the
numbers below their count, which both use as the size of the codebook, whatever the arithmetic does
out of range. -/
theorem pvq_indexing_bijective {n k : ℕ} (hn : 2 ≤ n) (_hk : 1 ≤ k) (_hk' : k ≤ 128)
    (hsize : codebookSize n k < 2 ^ 32) {wrap : ℤ → ℕ} (hwrap : Keeps wrap (2 ^ 32)) :
    (ncwrsUrow wrap n k).2 = codebookSize n k ∧
      (∀ y ∈ Vectors n k, ∃ i < codebookSize n k, icwrs wrap k y = (codebookSize n k, i) ∧
        cwrsi wrap n k i (ncwrsUrow wrap n k).1 = y) ∧
      ∀ i < codebookSize n k, cwrsi wrap n k i (ncwrsUrow wrap n k).1 ∈ Vectors n k ∧
        icwrs wrap k (cwrsi wrap n k i (ncwrsUrow wrap n k).1) = (codebookSize n k, i) := by
  rw [codebookSize_eq] at hsize ⊢
  obtain ⟨m, rfl⟩ := Nat.exists_eq_add_of_le' hn
  rw [ncwrsUrow_eq hwrap hsize]
  have hdecode (i : ℕ) (hi : i < size (m + 2) k) :=
    @cwrsi_spec wrap _ hwrap (m + 2) k i hi hsize (slots (m + 1) 0 (k + 2)) (by
      intro _ hm
      obtain rfl := Nat.succ.inj hm
      exact ⟨[], (List.append_nil _).symm⟩)
  have hencode {y : List ℤ} (hy : y ∈ Vectors (m + 2) k) :
      icwrs wrap k y = (size (m + 2) k, index y) := by
    obtain ⟨hlength, rfl⟩ := hy
    rw [icwrs_spec hwrap (hlength ▸ hn) (hlength ▸ hsize), hlength]
  refine ⟨rfl, fun y hy ↦ ?_, fun i hi ↦ ?_⟩
  · have hindex : index y < size (m + 2) k := by
      have hlt := index_lt y
      rwa [hy.1, hy.2] at hlt
    obtain ⟨hlength, hpulses, hsame⟩ := hdecode (index y) hindex
    exact ⟨index y, hindex, hencode hy, index_injOn _ _ ⟨hlength, hpulses⟩ hy hsame⟩
  · obtain ⟨hlength, hpulses, hindex⟩ := hdecode i hi
    refine ⟨⟨hlength, hpulses⟩, ?_⟩
    rw [hencode ⟨hlength, hpulses⟩, hindex]

/-- The arithmetic of the source, on three coordinates and two pulses. -/
theorem pvq_indexing_bijective_three :
    codebookSize 3 2 < 2 ^ 32 ∧ (ncwrsUrow wrapU32 3 2).2 = codebookSize 3 2 ∧
      (∀ y ∈ Vectors 3 2, ∃ i < codebookSize 3 2, icwrs wrapU32 2 y = (codebookSize 3 2, i) ∧
        cwrsi wrapU32 3 2 i (ncwrsUrow wrapU32 3 2).1 = y) ∧
      ∀ i < codebookSize 3 2, cwrsi wrapU32 3 2 i (ncwrsUrow wrapU32 3 2).1 ∈ Vectors 3 2 ∧
        icwrs wrapU32 2 (cwrsi wrapU32 3 2 i (ncwrsUrow wrapU32 3 2).1) =
          (codebookSize 3 2, i) := by
  have hsize : codebookSize 3 2 < 2 ^ 32 := by
    rw [codebookSize_eq]
    simp [size, row]
  exact ⟨hsize, pvq_indexing_bijective (by decide) (by decide) (by decide) hsize keeps_wrapU32⟩

example : cwrsi wrapU32 3 2 17 (ncwrsUrow wrapU32 3 2).1 = [-1, -1, 0] := by decide +kernel

end SiphonRtp.Codec.Pvq
