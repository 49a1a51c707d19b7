import Mathlib.Algebra.BigOperators.Group.Finset.Basic
import SiphonRtp.Media.WhisperPrivacy

/-!
# What a tick of the mix bus computes

The frame of a participant against its direct definition: the sum of the other active speakers, the
bridged room and the whispers for it, saturated once. The active speakers are described by
`Loudest`, which the loop over the candidates keeps.

The whispers for one target overwrite each other, so the definition has only the last of them
(`mix_eq`); it has all of them for a target of one whisper.
-/

set_option autoImplicit false

namespace SiphonRtp.Media

/-! ### The loudest speakers -/

theorem exists_weakest {best : List (ℤ × ℕ)} (hbest : best ≠ []) :
    ∃ slot, best[weakest best]? = some slot ∧ ∀ other ∈ best, slot.1 ≤ other.1 := by
  obtain ⟨least, hleast, hmin⟩ : ∃ least ∈ best, ∀ other ∈ best, least.1 ≤ other.1 := by
    induction best with
    | nil => exact absurd rfl hbest
    | cons first rest ih =>
      cases rest with
      | nil => exact ⟨first, by simp, by simp⟩
      | cons second rest =>
        obtain ⟨least, hleast, hmin⟩ := ih (by simp)
        by_cases hle : first.1 ≤ least.1
        · refine ⟨first, by simp, fun other hother ↦ ?_⟩
          rcases List.mem_cons.mp hother with rfl | hlater
          · exact le_rfl
          · exact hle.trans (hmin other hlater)
        · refine ⟨least, List.mem_cons_of_mem _ hleast, fun other hother ↦ ?_⟩
          rcases List.mem_cons.mp hother with rfl | hlater
          · omega
          · exact hmin other hlater
  have hlt : weakest best < best.length := by
    refine List.findIdx_lt_length_of_exists ⟨least, hleast, ?_⟩
    simpa using hmin
  refine ⟨_, List.getElem?_eq_getElem hlt, fun other hother ↦ ?_⟩
  have hfound := List.findIdx_getElem (w := hlt)
  exact of_decide_eq_true (List.all_eq_true.mp hfound other hother)

/-- The slots kept of the candidates seen so far: as many as there is room for, and the loudest. -/
structure Loudest (energy : ℕ → ℤ) (capacity : ℕ) (seen : List ℕ) (best : List (ℤ × ℕ)) : Prop where
  nodup : (best.map (·.2)).Nodup
  energy_eq : ∀ slot ∈ best, slot.1 = energy slot.2
  mem : ∀ slot ∈ best, slot.2 ∈ seen
  length_eq : best.length = min capacity seen.length
  room : best.length < capacity → ∀ index ∈ seen, index ∈ best.map (·.2)
  le : ∀ index ∈ seen, index ∉ best.map (·.2) → ∀ slot ∈ best, energy index ≤ slot.1

variable {energy : ℕ → ℤ} {capacity : ℕ} {seen : List ℕ} {best : List (ℤ × ℕ)}

/-- A candidate that is as loud as no kept speaker is left out. -/
theorem Loudest.skip (hloudest : Loudest energy capacity seen best)
    (hfull : ¬ best.length < capacity) {index : ℕ} (hquiet : ∀ slot ∈ best, energy index ≤ slot.1) :
    Loudest energy capacity (seen ++ [index]) best where
  nodup := hloudest.nodup
  energy_eq := hloudest.energy_eq
  mem slot hslot := List.mem_append_left _ (hloudest.mem slot hslot)
  length_eq := by
    have hlength := hloudest.length_eq
    rw [List.length_append]
    omega
  room hroom := absurd hroom hfull
  le other hother hout slot hslot := by
    rcases List.mem_append.mp hother with hold | hnew
    · exact hloudest.le other hold hout slot hslot
    · obtain rfl := List.mem_singleton.mp hnew
      exact hquiet slot hslot

theorem Loudest.push (hloudest : Loudest energy capacity seen best)
    (hroom : best.length < capacity) {index : ℕ} (hnew : index ∉ seen) :
    Loudest energy capacity (seen ++ [index]) (best ++ [(energy index, index)]) := by
  have hkept {other : ℕ} (hother : other ∈ seen ++ [index]) :
      other ∈ (best ++ [(energy index, index)]).map (·.2) := by
    rw [List.map_append]
    rcases List.mem_append.mp hother with hold | hlast
    · exact List.mem_append_left _ (hloudest.room hroom other hold)
    · exact List.mem_append_right _ hlast
  refine ⟨?_, fun slot hslot ↦ ?_, fun slot hslot ↦ ?_, ?_, fun _ other ↦ hkept,
    fun other hother hout ↦ absurd (hkept hother) hout⟩
  · rw [List.map_append, List.nodup_append]
    refine ⟨hloudest.nodup, List.nodup_singleton _, fun first hfirst second hsecond heq ↦ ?_⟩
    obtain ⟨slot, hslot, rfl⟩ := List.mem_map.mp hfirst
    obtain rfl := List.mem_singleton.mp hsecond
    exact hnew (heq ▸ hloudest.mem slot hslot)
  · rcases List.mem_append.mp hslot with hold | hlast
    · exact hloudest.energy_eq slot hold
    · rw [List.mem_singleton.mp hlast]
  · rcases List.mem_append.mp hslot with hold | hlast
    · exact List.mem_append_left _ (hloudest.mem slot hold)
    · rw [List.mem_singleton.mp hlast]
      simp
  · have hlength := hloudest.length_eq
    rw [List.length_append, List.length_append, List.length_singleton, List.length_singleton]
    omega

/-- The weakest kept speaker gives way to a louder one. -/
theorem Loudest.replace (hloudest : Loudest energy capacity seen best)
    (hfull : ¬ best.length < capacity) {index position : ℕ} (hnew : index ∉ seen) {slot : ℤ × ℕ}
    (hslot : best[position]? = some slot) (hmin : ∀ other ∈ best, slot.1 ≤ other.1)
    (hlouder : slot.1 < energy index) :
    Loudest energy capacity (seen ++ [index]) (best.set position (energy index, index)) := by
  obtain ⟨hposition, rfl⟩ := List.getElem?_eq_some_iff.mp hslot
  have hweak : best[position] ∈ best := List.getElem_mem hposition
  have hindices : (best.set position (energy index, index)).map (·.2) =
      (best.map (·.2)).set position index := List.map_set
  refine ⟨?_, fun other hother ↦ ?_, fun other hother ↦ ?_, ?_, fun hroom ↦ ?_,
    fun other hother hout kept hkept ↦ ?_⟩
  · rw [hindices]
    refine hloudest.nodup.set fun hmem ↦ ?_
    obtain ⟨old, hold, rfl⟩ := List.mem_map.mp hmem
    exact hnew (hloudest.mem old hold)
  · rcases List.mem_or_eq_of_mem_set hother with hold | rfl
    · exact hloudest.energy_eq other hold
    · rfl
  · rcases List.mem_or_eq_of_mem_set hother with hold | rfl
    · exact List.mem_append_left _ (hloudest.mem other hold)
    · simp
  · have hlength := hloudest.length_eq
    rw [List.length_set, List.length_append]
    omega
  · rw [List.length_set] at hroom
    exact absurd hroom hfull
  · -- who is left out is no louder than the slot that was given up
    have hle : energy other ≤ best[position].1 := by
      by_cases hwas : other ∈ best.map (·.2)
      · obtain ⟨place, hplace, heq⟩ := List.getElem_of_mem hwas
        rw [List.length_map] at hplace
        rw [List.getElem_map] at heq
        by_cases hsame : place = position
        · subst hsame
          rw [hloudest.energy_eq _ hweak, heq]
        · refine absurd (List.mem_map.mpr ⟨best[place], ?_, heq⟩) hout
          rw [List.mem_iff_getElem]
          exact ⟨place, by rwa [List.length_set],
            List.getElem_set_ne (Ne.symm hsame) _⟩
      · rcases List.mem_append.mp hother with hold | hlast
        · exact hloudest.le other hold hwas _ hweak
        · obtain rfl := List.mem_singleton.mp hlast
          refine absurd ?_ hout
          rw [hindices]
          exact List.mem_set (by rwa [List.length_map]) _
    rcases List.mem_or_eq_of_mem_set hkept with hold | rfl
    · exact hle.trans (hmin kept hold)
    · exact hle.trans hlouder.le

theorem Loudest.keepLoudest (hloudest : Loudest energy capacity seen best)
    (hcapacity : 0 < capacity) {index : ℕ} (hnew : index ∉ seen) :
    Loudest energy capacity (seen ++ [index])
      (Media.keepLoudest capacity best (energy index) index) := by
  unfold Media.keepLoudest
  by_cases hroom : best.length < capacity
  · rw [if_pos hroom]
    exact hloudest.push hroom hnew
  · rw [if_neg hroom]
    have hkept : best ≠ [] := by
      rintro rfl
      exact hroom hcapacity
    obtain ⟨slot, hslot, hmin⟩ := exists_weakest hkept
    rw [hslot]
    dsimp only
    by_cases hlouder : slot.1 < energy index
    · rw [if_pos hlouder]
      exact hloudest.replace hroom hnew hslot hmin hlouder
    · rw [if_neg hlouder]
      exact hloudest.skip hroom fun other hother ↦ (Int.not_lt.mp hlouder).trans (hmin other hother)

section Selection

variable (inputs : MixInputs) (sources : BitVec 64)

theorem loudest_range (hcapacity : 0 < capacity) (count : ℕ) :
    Loudest (inputs.energy.getD · 0) capacity
      ((List.range count).filter (isCandidate inputs sources))
      ((List.range count).foldl (fun best index ↦
        if isCandidate inputs sources index then
          keepLoudest capacity best (inputs.energy.getD index 0) index
        else best) []) := by
  induction count with
  | zero => exact ⟨List.nodup_nil, by simp, by simp, by simp, by simp, by simp⟩
  | succ count ih =>
    rw [List.range_succ, List.filter_append, List.foldl_append, List.foldl_cons]
    by_cases hcandidate : isCandidate inputs sources count = true
    · rw [if_pos hcandidate, List.filter_cons_of_pos hcandidate]
      exact ih.keepLoudest hcapacity fun hmem ↦ by simp at hmem
    · rw [if_neg hcandidate, List.filter_cons_of_neg hcandidate, List.filter_nil, List.append_nil]
      exact ih

/-- The active speakers are candidates, as many as the cap allows, and nobody who is left out is
louder than one of them. -/
structure Selected (topM : ℕ) (active : BitVec 64) : Prop where
  candidate : ∀ index < inputs.participantCount, inMask active index = true →
    isCandidate inputs sources index = true
  count : (List.range inputs.participantCount).countP (inMask active) =
    let speaking := (List.range inputs.participantCount).countP (isCandidate inputs sources)
    if topM = 0 then speaking else min topM (min maxActiveSpeakers speaking)
  le : ∀ index < inputs.participantCount, ∀ other < inputs.participantCount,
    inMask active index = true → isCandidate inputs sources other = true →
      inMask active other = false → inputs.energy.getD other 0 ≤ inputs.energy.getD index 0

/-- The size of a set of participants. -/
theorem countP_maskOf {indices : List ℕ} {count : ℕ} (hcount : count ≤ 64)
    (hindices : ∀ index ∈ indices, index < count) (hnodup : indices.Nodup) :
    (List.range count).countP (inMask (maskOf indices)) = indices.length := by
  rw [List.countP_eq_length_filter]
  refine List.Perm.length_eq ((List.perm_ext_iff_of_nodup
    (List.nodup_range.filter _) hnodup).mpr fun index ↦ ?_)
  rw [List.mem_filter, List.mem_range]
  have hmask (hlt : index < count) := inMask_maskOf
    (fun other hother ↦ (hindices other hother).trans_le hcount) (hlt.trans_le hcount)
  constructor
  · rintro ⟨hlt, hin⟩
    rw [hmask hlt] at hin
    exact of_decide_eq_true hin
  · intro hmem
    have hlt := hindices index hmem
    exact ⟨hlt, by rw [hmask hlt]; exact decide_eq_true hmem⟩

theorem selected (topM : ℕ) (hroles : inputs.roles.length = inputs.participantCount)
    (hcount : inputs.participantCount ≤ 64) :
    Selected inputs sources topM (selectActiveSpeakers inputs sources topM) := by
  unfold selectActiveSpeakers
  rw [hroles]
  by_cases htop : topM = 0
  · rw [if_pos htop]
    have hlt : ∀ index ∈ (List.range inputs.participantCount).filter (isCandidate inputs sources),
        index < inputs.participantCount := fun index hindex ↦
      List.mem_range.mp (List.mem_filter.mp hindex).1
    have hmask {index : ℕ} (hindex : index < inputs.participantCount) := inMask_maskOf
      (fun other hother ↦ (hlt other hother).trans_le hcount) (hindex.trans_le hcount)
    refine ⟨fun index hindex hin ↦ ?_, ?_, fun index _ other hother _ hcandidate hout ↦ ?_⟩
    · rw [hmask hindex] at hin
      exact (List.mem_filter.mp (of_decide_eq_true hin)).2
    · rw [countP_maskOf hcount hlt (List.nodup_range.filter _), if_pos htop,
        List.countP_eq_length_filter]
    · rw [hmask hother, decide_eq_false_iff_not, List.mem_filter, List.mem_range] at hout
      exact absurd ⟨hother, hcandidate⟩ hout
  · rw [if_neg htop]
    have hloudest := loudest_range inputs sources
      (show 0 < min topM maxActiveSpeakers by unfold maxActiveSpeakers; omega)
      inputs.participantCount
    generalize (List.range inputs.participantCount).foldl _ [] = best at hloudest
    have hmem : ∀ index ∈ best.map (·.2), index < inputs.participantCount ∧
        isCandidate inputs sources index = true := by
      intro index hindex
      obtain ⟨slot, hslot, rfl⟩ := List.mem_map.mp hindex
      obtain ⟨hrange, hcandidate⟩ := List.mem_filter.mp (hloudest.mem slot hslot)
      exact ⟨List.mem_range.mp hrange, hcandidate⟩
    have hmask {index : ℕ} (hindex : index < inputs.participantCount) := inMask_maskOf
      (fun other hother ↦ (hmem other hother).1.trans_le hcount) (hindex.trans_le hcount)
    refine ⟨fun index hindex hin ↦ ?_, ?_, fun index hindex other hother hin hcandidate hout ↦ ?_⟩
    · rw [hmask hindex] at hin
      exact (hmem index (of_decide_eq_true hin)).2
    · rw [countP_maskOf hcount (fun index h ↦ (hmem index h).1) hloudest.nodup, if_neg htop,
        List.length_map, hloudest.length_eq, List.countP_eq_length_filter, min_assoc]
    · rw [hmask hindex] at hin
      rw [hmask hother, decide_eq_false_iff_not] at hout
      obtain ⟨slot, hslot, rfl⟩ := List.mem_map.mp (of_decide_eq_true hin)
      have hle := hloudest.le other
        (List.mem_filter.mpr ⟨List.mem_range.mpr hother, hcandidate⟩) hout slot hslot
      rwa [hloudest.energy_eq slot hslot] at hle

end Selection

/-! ### Sums -/

namespace MixInputs

/-- A sample of a participant. -/
def sample (inputs : MixInputs) (index place : ℕ) : ℤ :=
  ((inputs.pcm.getD index []).getD place 0).toInt

/-- A sample of the bridged room, if there is one and as far as it goes. -/
def bridged (inputs : MixInputs) (place : ℕ) : ℤ :=
  ((inputs.external.getD []).getD place 0).toInt

/-- What the mixer asserts of its inputs, and that each row holds a frame. -/
structure Valid (inputs : MixInputs) (participants samples : ℕ) : Prop where
  count_le : inputs.participantCount ≤ participants
  roles : inputs.roles.length = inputs.participantCount
  energy : inputs.energy.length = inputs.participantCount
  speaking : inputs.speaking.length = inputs.participantCount
  frameLen_le : inputs.frameLen ≤ samples
  rows : ∀ row ∈ inputs.pcm, inputs.frameLen ≤ row.length

theorem Valid.exists_row {inputs : MixInputs} {participants samples : ℕ}
    (hvalid : inputs.Valid participants samples) {index : ℕ}
    (hindex : index < inputs.participantCount) :
    ∃ row, inputs.row index = some row ∧ row.length = inputs.frameLen ∧
      ∀ place < inputs.frameLen, (row.getD place 0).toInt = inputs.sample index place := by
  have hsome : inputs.pcm[index]? = some inputs.pcm[index] := List.getElem?_eq_getElem hindex
  have hle := hvalid.rows _ (List.getElem_mem hindex)
  refine ⟨inputs.pcm[index].take inputs.frameLen, ?_, by simpa using hle, fun place hplace ↦ ?_⟩
  · unfold row
    rw [hsome]
    exact if_pos hle
  · unfold sample
    rw [List.getD_eq_getElem?_getD, List.getD_eq_getElem?_getD, List.getD_eq_getElem?_getD, hsome,
      Option.getD_some, List.getElem?_take_of_lt hplace]

end MixInputs

theorem length_addSamples (total : List ℤ) (frame : List Int16) :
    (addSamples total frame).length = total.length := by
  induction total generalizing frame with
  | nil => cases frame <;> rfl
  | cons first total ih =>
    cases frame with
    | nil => rfl
    | cons sample frame => simp [addSamples, ih]

theorem getD_addSamples {total : List ℤ} (frame : List Int16) {place : ℕ}
    (hplace : place < total.length) :
    (addSamples total frame).getD place 0 = total.getD place 0 + (frame.getD place 0).toInt := by
  induction total generalizing frame place with
  | nil => exact absurd hplace (Nat.not_lt_zero _)
  | cons first total ih =>
    cases frame with
    | nil => simp [addSamples]
    | cons sample frame =>
      cases place with
      | zero => rfl
      | succ place => exact ih frame (Nat.lt_of_succ_lt_succ hplace)

namespace Mixer

variable {participants samples : ℕ} {inputs : MixInputs}

section Sums

variable (hvalid : inputs.Valid participants samples) (active : BitVec 64)

/-- What a participant adds to the room. -/
def spoken (inputs : MixInputs) (active : BitVec 64) (place index : ℕ) : ℤ :=
  if inMask active index then inputs.sample index place else 0

include hvalid

theorem exists_room {count : ℕ} (hcount : count ≤ inputs.participantCount) :
    ∃ room, (List.range count).foldlM (addRow inputs active) (List.replicate inputs.frameLen 0) =
        some room ∧ room.length = inputs.frameLen ∧
      ∀ place < inputs.frameLen, room.getD place 0 =
        ∑ index ∈ Finset.range count, spoken inputs active place index := by
  induction count with
  | zero =>
    refine ⟨_, rfl, List.length_replicate, fun place hplace ↦ ?_⟩
    simp [hplace]
  | succ count ih =>
    obtain ⟨room, hroom, hlength, hsum⟩ := ih (Nat.le_of_succ_le hcount)
    rw [List.range_succ, List.foldlM_append, hroom]
    have hstep : ((some room).bind fun room ↦ [count].foldlM (addRow inputs active) room) =
        addRow inputs active room count := by
      simp
    change ∃ next, (some room).bind _ = some next ∧ _
    rw [hstep]
    unfold addRow
    by_cases hactive : inMask active count = true
    · obtain ⟨row, hrow, -, hsample⟩ := hvalid.exists_row hcount
      rw [if_pos hactive, hrow]
      refine ⟨_, rfl, (length_addSamples _ _).trans hlength, fun place hplace ↦ ?_⟩
      rw [getD_addSamples row (hlength ▸ hplace), Finset.sum_range_succ, hsum place hplace,
        hsample place hplace, spoken, if_pos hactive]
    · rw [if_neg hactive]
      refine ⟨room, rfl, hlength, fun place hplace ↦ ?_⟩
      rw [Finset.sum_range_succ, hsum place hplace, spoken, if_neg hactive, add_zero]

end Sums

/-! ### Frames -/

/-- A frame of sums, each saturated once. -/
def frameOf (length : ℕ) (sum : ℕ → ℤ) : List Int16 :=
  (List.range length).map fun place ↦ saturate (sum place)

theorem length_frameOf (length : ℕ) (sum : ℕ → ℤ) : (frameOf length sum).length = length := by
  simp [frameOf]

theorem frameOf_congr {length : ℕ} {sum other : ℕ → ℤ}
    (hsum : ∀ place < length, sum place = other place) :
    frameOf length sum = frameOf length other :=
  List.map_congr_left fun place hplace ↦ congrArg saturate (hsum place (List.mem_range.mp hplace))

theorem zipWith_eq_frameOf {α : Type} {total : List ℤ} {row : List α} {length : ℕ} {zero : α}
    (htotal : total.length = length) (hrow : row.length = length) (combine : ℤ → α → ℤ) :
    List.zipWith (fun sum value ↦ saturate (combine sum value)) total row =
      frameOf length fun place ↦ combine (total.getD place 0) (row.getD place zero) := by
  refine List.ext_getElem (by simp [length_frameOf, htotal, hrow]) fun place hleft hright ↦ ?_
  rw [length_frameOf] at hright
  simp [frameOf, htotal, hrow, hright]

theorem take_overwrite {buffer : Vector Int16 samples} {frame : List Int16}
    (hframe : frame.length ≤ samples) :
    (overwrite buffer frame).toList.take frame.length = frame := by
  refine List.ext_getElem (by simpa using hframe) fun place hleft hright ↦ ?_
  simp [overwrite, hright]

variable {mixer : Mixer participants samples}

theorem outputFor_giveOwn {index : ℕ} {frame : List Int16} (hindex : index < participants)
    (hcount : index < mixer.participantCount) (hframe : frame.length = mixer.frameLen)
    (hfits : mixer.frameLen ≤ samples) : (mixer.giveOwn index frame).outputFor index = frame := by
  have hown : (mixer.giveOwn index frame).own[index]? =
      some (overwrite mixer.own[index] frame) := by
    rw [own_giveOwn, if_pos rfl, Vector.getElem?_eq_getElem hindex, Option.map_some]
  have hhas : (mixer.giveOwn index frame).hasOwn[index]? = some true := by
    simp [giveOwn, hindex]
  unfold outputFor
  rw [hown, hhas]
  dsimp only
  have hshown : index < (mixer.giveOwn index frame).participantCount := hcount
  rw [if_pos hshown]
  change List.take mixer.frameLen _ = frame
  rw [← hframe]
  exact take_overwrite (hframe.trans_le hfits)

theorem outputFor_giveOwn_ne {index other : ℕ} (frame : List Int16) (hother : other ≠ index) :
    (mixer.giveOwn index frame).outputFor other = mixer.outputFor other := by
  have hhas : (mixer.giveOwn index frame).hasOwn[other]? = mixer.hasOwn[other]? := by
    unfold giveOwn
    simp [hother]
  unfold outputFor
  rw [own_giveOwn, if_neg hother, hhas]
  rfl

/-- Everyone starts from the shared frame. -/
theorem outputFor_share {room total : List ℤ} (htotal : total.length = inputs.frameLen)
    (hfits : inputs.frameLen ≤ samples) {index : ℕ} (hindex : index < inputs.participantCount) :
    (mixer.share inputs room total).outputFor index =
      frameOf inputs.frameLen fun place ↦ total.getD place 0 := by
  have hlistener : (mixer.share inputs room total).listenerMix = total.map saturate := by
    change (overwrite mixer.listenerBuf (total.map saturate)).toList.take inputs.frameLen = _
    have hlength : (total.map saturate).length = inputs.frameLen := by rw [List.length_map, htotal]
    rw [← hlength]
    exact take_overwrite (hlength.trans_le hfits)
  have hframe : total.map saturate = frameOf inputs.frameLen fun place ↦ total.getD place 0 := by
    refine List.ext_getElem (by simp [length_frameOf, htotal]) fun place hleft hright ↦ ?_
    rw [length_frameOf] at hright
    simp [frameOf, htotal, hright]
  have hhas : (mixer.share inputs room total).hasOwn[index]? ≠ some true := by
    unfold share
    simp [hindex]
  rw [← hframe, ← hlistener]
  unfold outputFor
  split
  next htrue => exact absurd htrue hhas
  next => rfl

/-! ### The loops of a tick -/

/-- A mixer in the middle of a tick. -/
structure Ticking (inputs : MixInputs) (mixer : Mixer participants samples) : Prop where
  participantCount : mixer.participantCount = inputs.participantCount
  frameLen : mixer.frameLen = inputs.frameLen

section Loops

variable (hvalid : inputs.Valid participants samples) {active : BitVec 64} {total : List ℤ}
  (htotal : total.length = inputs.frameLen)

/-- The room, as a participant hears it before any whisper. -/
def base (inputs : MixInputs) (active : BitVec 64) (total : List ℤ) (index place : ℕ) : ℤ :=
  if inMask active index then total.getD place 0 - inputs.sample index place
  else total.getD place 0

include hvalid htotal

theorem hearRoom_range (hticking : mixer.Ticking inputs) {count : ℕ}
    (hcount : count ≤ inputs.participantCount) :
    ∃ next, (List.range count).foldlM (hearRoom inputs active total) mixer = some next ∧
      next.Ticking inputs ∧ ∀ index < inputs.participantCount, next.outputFor index =
        if index < count ∧ inMask active index = true then
          frameOf inputs.frameLen (base inputs active total index)
        else mixer.outputFor index := by
  induction count with
  | zero => exact ⟨mixer, rfl, hticking, fun index _ ↦ by simp⟩
  | succ count ih =>
    obtain ⟨next, hnext, hready, houtput⟩ := ih (Nat.le_of_succ_le hcount)
    have hstep : (List.range (count + 1)).foldlM (hearRoom inputs active total) mixer =
        hearRoom inputs active total next count := by
      rw [List.range_succ, List.foldlM_append, hnext]
      simp
    rw [hstep]
    unfold hearRoom
    by_cases hactive : inMask active count = true
    · obtain ⟨row, hrow, hlength, hsample⟩ := hvalid.exists_row hcount
      rw [if_pos hactive, hrow]
      refine ⟨_, rfl, ⟨hready.participantCount, hready.frameLen⟩, fun index hindex ↦ ?_⟩
      by_cases heq : index = count
      · subst heq
        rw [if_pos ⟨Nat.lt_succ_self _, hactive⟩,
          zipWith_eq_frameOf htotal hlength fun sum own : _ ↦ sum - own.toInt,
          outputFor_giveOwn (hindex.trans_le hvalid.count_le)
            (hready.participantCount ▸ hindex)
            ((length_frameOf _ _).trans hready.frameLen.symm)
            (hready.frameLen ▸ hvalid.frameLen_le)]
        refine frameOf_congr fun place hplace ↦ ?_
        rw [base, if_pos hactive, hsample place hplace]
      · rw [outputFor_giveOwn_ne _ heq, houtput index hindex]
        exact if_congr (and_congr_left fun _ ↦ by omega) rfl rfl
    · rw [if_neg hactive]
      refine ⟨next, rfl, hready, fun index hindex ↦ ?_⟩
      rw [houtput index hindex]
      refine if_congr (and_congr_left fun hin ↦ ?_) rfl rfl
      have hne : index ≠ count := fun heq ↦ hactive (heq ▸ hin)
      omega

/-- The whispers for a participant that come from a seat. -/
def whispersTo (inputs : MixInputs) (whispers : List Whisper) (index : ℕ) : List Whisper :=
  whispers.filter fun whisper ↦
    decide (whisper.source < inputs.participantCount ∧ whisper.target = index)

omit hvalid htotal in
theorem whispersTo_cons (whisper : Whisper) (whispers : List Whisper) (index : ℕ) :
    whispersTo inputs (whisper :: whispers) index =
      if whisper.source < inputs.participantCount ∧ whisper.target = index then
        whisper :: whispersTo inputs whispers index
      else whispersTo inputs whispers index := by
  unfold whispersTo
  rw [List.filter_cons]
  exact if_congr decide_eq_true_iff rfl rfl

/-- One whisper replaces the frame of its target. -/
theorem hearWhisper_eq (hticking : mixer.Ticking inputs) (whisper : Whisper) :
    ∃ next, mixer.hearWhisper inputs active total whisper = some next ∧ next.Ticking inputs ∧
      ∀ index < inputs.participantCount, next.outputFor index =
        if whisper.source < inputs.participantCount ∧ whisper.target = index then
          frameOf inputs.frameLen fun place ↦
            base inputs active total index place + inputs.sample whisper.source place
        else mixer.outputFor index := by
  unfold hearWhisper
  by_cases hseats : whisper.source < inputs.participantCount ∧
      whisper.target < inputs.participantCount
  · obtain ⟨fromRow, hfrom, hfromLength, hfromSample⟩ := hvalid.exists_row hseats.1
    obtain ⟨toRow, hto, htoLength, htoSample⟩ := hvalid.exists_row hseats.2
    rw [if_pos hseats, hfrom, hto]
    refine ⟨_, rfl, ⟨hticking.participantCount, hticking.frameLen⟩, fun index hindex ↦ ?_⟩
    by_cases heq : whisper.target = index
    · subst heq
      have hframe : whispered (inMask active whisper.target) total fromRow toRow =
          frameOf inputs.frameLen fun place ↦ base inputs active total whisper.target place +
            inputs.sample whisper.source place := by
        unfold whispered
        rw [zipWith_eq_frameOf (by simp [htotal, htoLength]) hfromLength fun sum own : _ ↦
          sum + own.toInt]
        refine frameOf_congr fun place hplace ↦ ?_
        rw [hfromSample place hplace]
        congr 1
        unfold base
        rw [← htoSample place hplace]
        simp [htotal, htoLength, hplace]
      rw [if_pos ⟨hseats.1, rfl⟩, hframe]
      exact outputFor_giveOwn (hindex.trans_le hvalid.count_le)
        (hticking.participantCount ▸ hindex) ((length_frameOf _ _).trans hticking.frameLen.symm)
        (hticking.frameLen ▸ hvalid.frameLen_le)
    · rw [outputFor_giveOwn_ne _ (Ne.symm heq), if_neg fun h ↦ heq h.2]
  · rw [if_neg hseats]
    refine ⟨mixer, rfl, hticking, fun index hindex ↦ ?_⟩
    rw [if_neg]
    rintro ⟨hsource, rfl⟩
    exact hseats ⟨hsource, hindex⟩

/-- Of the whispers for a participant the last one stays. -/
theorem hearWhispers_eq (hticking : mixer.Ticking inputs) (whispers : List Whisper) :
    ∃ next, whispers.foldlM (hearWhisper inputs active total) mixer = some next ∧
      ∀ index < inputs.participantCount, next.outputFor index =
        (whispersTo inputs whispers index).getLast?.elim (mixer.outputFor index) fun whisper ↦
          frameOf inputs.frameLen fun place ↦
            base inputs active total index place + inputs.sample whisper.source place := by
  induction whispers generalizing mixer with
  | nil => exact ⟨mixer, rfl, fun _ _ ↦ rfl⟩
  | cons whisper whispers ih =>
    obtain ⟨next, hnext, hready, houtput⟩ := hearWhisper_eq hvalid htotal hticking whisper
    obtain ⟨last, hlast, hrest⟩ := ih hready
    refine ⟨last, ?_, fun index hindex ↦ ?_⟩
    · rw [List.foldlM_cons, hnext]
      exact hlast
    · rw [hrest index hindex, houtput index hindex, whispersTo_cons]
      split
      · rw [List.getLast?_cons]
        cases (whispersTo inputs whispers index).getLast? <;> rfl
      · rfl

end Loops

/-! ### A tick -/

section Tick

/-- What a participant hears besides whispers: the other active speakers and the bridged room. -/
def room (inputs : MixInputs) (active : BitVec 64) (index place : ℕ) : ℤ :=
  (∑ other ∈ (Finset.range inputs.participantCount).erase index,
    spoken inputs active place other) + inputs.bridged place

/-- The total of the room, with the participant itself taken out again. -/
theorem base_eq_room {active : BitVec 64} {total : List ℤ} {index place : ℕ}
    (hindex : index < inputs.participantCount)
    (htotal : total.getD place 0 = (∑ other ∈ Finset.range inputs.participantCount,
      spoken inputs active place other) + inputs.bridged place) :
    base inputs active total index place = room inputs active index place := by
  unfold base room
  have herase := Finset.add_sum_erase (Finset.range inputs.participantCount)
    (spoken inputs active place) (Finset.mem_range.mpr hindex)
  rw [htotal, ← herase]
  unfold spoken
  split <;> omega

variable (mixer) (hvalid : inputs.Valid participants samples) (whispers : List Whisper) (topM : ℕ)

include hvalid

omit hvalid in
/-- The bridged input goes on top of the local mix. -/
theorem exists_total {loc : List ℤ} {heard : ℕ → ℤ} (hlength : loc.length = inputs.frameLen)
    (hsum : ∀ place < inputs.frameLen, loc.getD place 0 = heard place) :
    ∃ total, (inputs.external = none → loc = total) ∧
      (∀ external, inputs.external = some external → addSamples loc external = total) ∧
      total.length = inputs.frameLen ∧ ∀ place < inputs.frameLen, total.getD place 0 =
        heard place + inputs.bridged place := by
  unfold MixInputs.bridged
  cases inputs.external with
  | none =>
    refine ⟨loc, fun _ ↦ rfl, by simp, hlength, fun place hplace ↦ ?_⟩
    rw [hsum place hplace]
    simp
  | some external =>
    refine ⟨addSamples loc external, by simp, fun other hother ↦ ?_,
      (length_addSamples _ _).trans hlength, fun place hplace ↦ ?_⟩
    · rw [Option.some.inj hother]
    · rw [getD_addSamples external (hlength ▸ hplace), hsum place hplace]
      rfl

/-- A tick on valid inputs: who is active, and what everyone hears. -/
theorem mix_eq :
    ∃ active mixed, mixer.mix inputs whispers [] topM = some (active, mixed) ∧
      Selected inputs (privateSources whispers inputs.participantCount) topM active ∧
      ∀ index < inputs.participantCount, mixed.outputFor index =
        frameOf inputs.frameLen fun place ↦ room inputs active index place +
          (whispersTo inputs whispers index).getLast?.elim 0 fun whisper ↦
            inputs.sample whisper.source place := by
  have hselected := selected inputs (privateSources whispers inputs.participantCount) topM
    hvalid.roles (hvalid.count_le.trans mixer.participants_le)
  generalize hactive : selectActiveSpeakers inputs
    (privateSources whispers inputs.participantCount) topM = active at hselected
  obtain ⟨loc, hroom, hlength, hsum⟩ := exists_room hvalid active le_rfl
  obtain ⟨total, hnone, hsome, htotal, hplaces⟩ := exists_total hlength hsum
  have hshared : (mixer.share inputs loc total).Ticking inputs := ⟨rfl, rfl⟩
  obtain ⟨talkers, htalkers, hticking, hheard⟩ :=
    @hearRoom_range _ _ _ _ hvalid active _ htotal hshared _ le_rfl
  obtain ⟨mixed, hmixed, houtput⟩ :=
    @hearWhispers_eq _ _ _ _ hvalid active _ htotal hticking whispers
  refine ⟨active, mixed, ?_, hselected, fun index hindex ↦ ?_⟩
  · unfold mix
    rw [if_pos ⟨hvalid.count_le, hvalid.roles, hvalid.energy, hvalid.speaking,
      hvalid.frameLen_le⟩]
    dsimp only
    rw [hactive, hroom]
    split
    next external hexternal =>
      obtain rfl := hsome external hexternal
      simp [htalkers, hmixed]
    next hexternal =>
      obtain rfl := hnone hexternal
      simp [htalkers, hmixed]
  · have hbase {place : ℕ} (hplace : place < inputs.frameLen) :=
      base_eq_room hindex (hplaces place hplace)
    have hbefore : talkers.outputFor index =
        frameOf inputs.frameLen (room inputs active index) := by
      rw [hheard index hindex]
      split
      · exact frameOf_congr fun place hplace ↦ hbase hplace
      · next hnot =>
        rw [outputFor_share htotal hvalid.frameLen_le hindex]
        refine frameOf_congr fun place hplace ↦ ?_
        rw [← hbase hplace, base, if_neg fun h ↦ hnot ⟨hindex, h⟩]
    rw [houtput index hindex]
    cases (whispersTo inputs whispers index).getLast? with
    | none => exact hbefore.trans (frameOf_congr fun place _ ↦ (add_zero _).symm)
    | some whisper =>
      exact frameOf_congr fun place hplace ↦ congrArg (· + _) (hbase hplace)

/-- Mixing is exact. Assumes: what the mixer asserts of its inputs, and that each row holds a frame.
The mixer returns, with the loudest speakers selected, and each participant that is whispered to at
most once hears the sum of all it should hear, the selected speakers but itself and that whisper,
added in full and saturated once. -/
theorem mix_exact :
    ∃ active mixed, mixer.mix inputs whispers [] topM = some (active, mixed) ∧
      Selected inputs (privateSources whispers inputs.participantCount) topM active ∧
      ∀ index < inputs.participantCount, (whispersTo inputs whispers index).length ≤ 1 →
        mixed.outputFor index = frameOf inputs.frameLen fun place ↦
          room inputs active index place + ((whispersTo inputs whispers index).map fun whisper ↦
            inputs.sample whisper.source place).sum := by
  obtain ⟨active, mixed, hmix, hselected, houtput⟩ := mix_eq mixer hvalid whispers topM
  refine ⟨active, mixed, hmix, hselected, fun index hindex hone ↦ ?_⟩
  rw [houtput index hindex]
  refine frameOf_congr fun place _ ↦ congrArg (room inputs active index place + ·) ?_
  rcases hwhispers : whispersTo inputs whispers index with _ | ⟨whisper, _ | ⟨second, rest⟩⟩
  · rfl
  · simp
  · rw [hwhispers] at hone
    simp at hone

omit hvalid

/-- The target of one whisper hears the room and the whisper. -/
theorem mix_exact_coached :
    ∃ active mixed,
      (new 3 1).mix (threeTalkers 100 10000 true) [⟨0, 1⟩] [] 1 = some (active, mixed) ∧
      mixed.outputFor 1 = [saturate (room (threeTalkers 100 10000 true) active 1 0 + 100)] := by
  have hvalid : (threeTalkers 100 10000 true).Valid (min 3 maxParticipants) 1 :=
    ⟨by decide, rfl, rfl, rfl, le_rfl, by decide⟩
  obtain ⟨active, mixed, hmix, -, houtput⟩ := mix_exact (new 3 1) hvalid [⟨0, 1⟩] 1
  exact ⟨active, mixed, hmix, houtput 1 (by decide) (by decide)⟩

/-- Without a cap nine participants are active at once. -/
theorem nine_active_without_cap :
    let inputs : MixInputs := ⟨List.replicate 9 [100, -100], List.replicate 9 .talker,
      List.replicate 9 100, List.replicate 9 true, none, 2⟩
    ((new 9 2).mix inputs [] [] 0).map (fun tick ↦ (List.range 9).countP (inMask tick.1)) =
      some 9 := by
  decide +kernel

/-- Of two whispers for one participant the first is lost: with both, they would hear 140. -/
theorem first_whisper_lost :
    let inputs := threeTalkers 100 10000 true
    let whispers := [⟨0, 1⟩, ⟨2, 1⟩]
    ((new 3 1).mix inputs whispers [] 1).map (fun tick ↦ (tick.2.outputFor 1,
      frameOf inputs.frameLen fun place ↦ room inputs tick.1 1 place +
        ((whispersTo inputs whispers 1).map fun whisper ↦
          inputs.sample whisper.source place).sum)) = some ([40], [140]) := by
  decide +kernel

end Tick

end Mixer

end SiphonRtp.Media
