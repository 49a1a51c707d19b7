import SiphonRtp.Media.Mixer

/-!
# A whisper stays private

Two ticks that differ only in what a whispering participant says, how loud and whether at all, are
the same for everyone but the targets of its whispers: the selection of the active speakers does not
see it, the sum of the room leaves it out, and only its targets' frames read its row.
-/

set_option autoImplicit false

namespace SiphonRtp.Media

/-! ### Sets of participants -/

theorem inMask_eq (mask : BitVec 64) {index : ℕ} (hindex : index < 64) :
    inMask mask index = mask.getLsbD index := by
  unfold inMask
  rw [← BitVec.twoPow_eq, BitVec.and_twoPow]
  cases mask.getLsbD index with
  | false => rfl
  | true =>
    rw [bne_iff_ne]
    intro hzero
    have hbit := congrArg (BitVec.getLsbD · index) hzero
    simp [hindex] at hbit

theorem inMask_insert (mask : BitVec 64) {index other : ℕ} (hindex : index < 64)
    (hother : other < 64) :
    inMask (mask ||| (1#64 <<< other)) index = (inMask mask index || decide (index = other)) := by
  rw [inMask_eq _ hindex, inMask_eq _ hindex, ← BitVec.twoPow_eq]
  simp [hother, eq_comm]

theorem inMask_foldl {indices : List ℕ} (hindices : ∀ index ∈ indices, index < 64)
    (mask : BitVec 64) {index : ℕ} (hindex : index < 64) :
    inMask (indices.foldl (fun mask other ↦ mask ||| (1#64 <<< other)) mask) index =
      (inMask mask index || decide (index ∈ indices)) := by
  induction indices generalizing mask with
  | nil => simp
  | cons other indices ih =>
    rw [List.foldl_cons, ih (fun index hin ↦ hindices index (List.mem_cons_of_mem _ hin)),
      inMask_insert _ hindex (hindices other (by simp)), Bool.or_assoc]
    simp [List.mem_cons]

theorem inMask_maskOf {indices : List ℕ} (hindices : ∀ index ∈ indices, index < 64) {index : ℕ}
    (hindex : index < 64) : inMask (maskOf indices) index = decide (index ∈ indices) := by
  unfold maskOf
  rw [inMask_foldl hindices _ hindex]
  simp [inMask]

theorem privateSources_eq (whispers : List Whisper) (count : ℕ) :
    privateSources whispers count =
      maskOf ((whispers.filter (·.source < count)).map (·.source)) := by
  unfold privateSources maskOf
  rw [List.foldl_map, List.foldl_filter]
  simp only [decide_eq_true_eq]

/-- Whoever whispers is a private source. -/
theorem inMask_privateSources {whispers : List Whisper} {count : ℕ} (hcount : count ≤ 64)
    {whisper : Whisper} (hwhisper : whisper ∈ whispers) (hsource : whisper.source < count) :
    inMask (privateSources whispers count) whisper.source = true := by
  rw [privateSources_eq, inMask_maskOf (fun index hindex ↦ ?_) (by omega), decide_eq_true_eq]
  · exact List.mem_map.mpr ⟨whisper, List.mem_filter.mpr ⟨hwhisper, decide_eq_true hsource⟩, rfl⟩
  · obtain ⟨other, hother, rfl⟩ := List.mem_map.mp hindex
    have hlt := of_decide_eq_true (List.mem_filter.mp hother).2
    omega

/-! ### Two ticks -/

/-- Two ticks that differ in the audio, the energy and the speaking flag of one participant. -/
structure MixInputs.Differ (inputs other : MixInputs) (participant : ℕ) : Prop where
  count : other.pcm.length = inputs.pcm.length
  pcm : ∀ index ≠ participant, other.pcm[index]? = inputs.pcm[index]?
  roles : other.roles = inputs.roles
  energies : other.energy.length = inputs.energy.length
  energy : ∀ index ≠ participant, other.energy[index]? = inputs.energy[index]?
  flags : other.speaking.length = inputs.speaking.length
  speaking : ∀ index ≠ participant, other.speaking[index]? = inputs.speaking[index]?
  external : other.external = inputs.external
  frameLen : other.frameLen = inputs.frameLen

variable {inputs other : MixInputs} {participant : ℕ}

theorem MixInputs.Differ.row (hdiffer : inputs.Differ other participant) {index : ℕ}
    (hindex : index ≠ participant) : other.row index = inputs.row index := by
  unfold MixInputs.row
  rw [hdiffer.pcm index hindex, hdiffer.frameLen]

theorem MixInputs.Differ.participantCount (hdiffer : inputs.Differ other participant) :
    other.participantCount = inputs.participantCount :=
  hdiffer.count

/-! ### Selection -/

theorem isCandidate_private {sources : BitVec 64} (hprivate : inMask sources participant = true) :
    isCandidate inputs sources participant = false := by
  unfold isCandidate
  rw [hprivate, Bool.not_true, Bool.and_false]

theorem isCandidate_differ (hdiffer : inputs.Differ other participant) {sources : BitVec 64}
    (hprivate : inMask sources participant = true) :
    isCandidate other sources = isCandidate inputs sources := by
  funext index
  by_cases hindex : index = participant
  · rw [hindex, isCandidate_private hprivate, isCandidate_private hprivate]
  · unfold isCandidate
    rw [hdiffer.roles, List.getD_eq_getElem?_getD, List.getD_eq_getElem?_getD,
      hdiffer.speaking index hindex]

/-- The selection does not see a private source. -/
theorem selectActiveSpeakers_differ (hdiffer : inputs.Differ other participant)
    {sources : BitVec 64} (hprivate : inMask sources participant = true) (topM : ℕ) :
    selectActiveSpeakers other sources topM = selectActiveSpeakers inputs sources topM := by
  unfold selectActiveSpeakers
  rw [isCandidate_differ hdiffer hprivate, hdiffer.roles]
  have hstep : (fun (best : List (ℤ × ℕ)) index ↦
      if isCandidate inputs sources index then
        keepLoudest (min topM maxActiveSpeakers) best (other.energy.getD index 0) index
      else best) = fun best index ↦
      if isCandidate inputs sources index then
        keepLoudest (min topM maxActiveSpeakers) best (inputs.energy.getD index 0) index
      else best := by
    funext best index
    by_cases hindex : index = participant
    · rw [hindex, isCandidate_private hprivate]
      rfl
    · rw [List.getD_eq_getElem?_getD, List.getD_eq_getElem?_getD, hdiffer.energy index hindex]
  simp only [hstep]

theorem mem_keepLoudest {capacity : ℕ} {best : List (ℤ × ℕ)} {energy : ℤ} {index : ℕ}
    {slot : ℤ × ℕ} (hslot : slot ∈ keepLoudest capacity best energy index) :
    slot ∈ best ∨ slot.2 = index := by
  unfold keepLoudest at hslot
  split at hslot
  · rcases List.mem_append.mp hslot with hold | hnew
    · exact .inl hold
    · rw [List.mem_singleton.mp hnew]
      exact .inr rfl
  · split at hslot
    · split at hslot
      · rcases List.mem_or_eq_of_mem_set hslot with hold | hnew
        · exact .inl hold
        · rw [hnew]
          exact .inr rfl
      · exact .inl hslot
    · exact .inl hslot

/-- Only candidates are kept. -/
theorem mem_loudest {sources : BitVec 64} {capacity : ℕ} {indices : List ℕ}
    {best : List (ℤ × ℕ)} {slot : ℤ × ℕ}
    (hslot : slot ∈ indices.foldl (fun best index ↦
      if isCandidate inputs sources index then
        keepLoudest capacity best (inputs.energy.getD index 0) index
      else best) best) :
    slot ∈ best ∨ slot.2 ∈ indices ∧ isCandidate inputs sources slot.2 = true := by
  induction indices generalizing best with
  | nil => exact .inl hslot
  | cons index indices ih =>
    rcases ih hslot with hfirst | ⟨hlater, hcandidate⟩
    · dsimp only at hfirst
      split at hfirst
      next hcandidate =>
        rcases mem_keepLoudest hfirst with hold | hnew
        · exact .inl hold
        · rw [hnew]
          exact .inr ⟨by simp, hcandidate⟩
      · exact .inl hfirst
    · exact .inr ⟨List.mem_cons_of_mem _ hlater, hcandidate⟩

/-- Only candidates are selected. -/
theorem isCandidate_of_inMask {sources : BitVec 64} {topM index : ℕ}
    (hroles : inputs.roles.length ≤ 64) (hindex : index < 64)
    (hactive : inMask (selectActiveSpeakers inputs sources topM) index = true) :
    isCandidate inputs sources index = true := by
  unfold selectActiveSpeakers at hactive
  dsimp only at hactive
  split at hactive
  · rw [inMask_maskOf (fun other hother ↦ ?_) hindex, decide_eq_true_eq] at hactive
    · exact (List.mem_filter.mp hactive).2
    · have hlt := List.mem_range.mp (List.mem_filter.mp hother).1
      omega
  · rw [inMask_maskOf (fun other hother ↦ ?_) hindex, decide_eq_true_eq] at hactive
    · obtain ⟨slot, hslot, rfl⟩ := List.mem_map.mp hactive
      exact ((mem_loudest hslot).resolve_left (by simp)).2
    · obtain ⟨slot, hslot, rfl⟩ := List.mem_map.mp hother
      have hlt := List.mem_range.mp ((mem_loudest hslot).resolve_left (by simp)).1
      omega

/-! ### The room -/

namespace Mixer

variable {participants samples : ℕ}

theorem addRow_differ (hdiffer : inputs.Differ other participant) {active : BitVec 64}
    (hinactive : inMask active participant = false) :
    addRow other active = addRow inputs active := by
  funext total index
  unfold addRow
  by_cases hindex : index = participant
  · rw [hindex, hinactive]
    rfl
  · rw [hdiffer.row hindex]

theorem hearRoom_differ (hdiffer : inputs.Differ other participant) {active : BitVec 64}
    (hinactive : inMask active participant = false) (total : List ℤ) :
    @hearRoom participants samples other active total =
      hearRoom inputs active total := by
  funext mixer index
  unfold hearRoom
  by_cases hindex : index = participant
  · rw [hindex, hinactive]
    rfl
  · rw [hdiffer.row hindex]

/-! ### Whispers -/

/-- Two mixers that differ in the frames of some participants only. -/
structure Alike (mixer other : Mixer participants samples) (targets : ℕ → Prop) : Prop where
  listenerBuf : other.listenerBuf = mixer.listenerBuf
  participantBuf : other.participantBuf = mixer.participantBuf
  hasOwn : other.hasOwn = mixer.hasOwn
  frameLen : other.frameLen = mixer.frameLen
  participantCount : other.participantCount = mixer.participantCount
  own : ∀ index, ¬ targets index → other.own[index]? = mixer.own[index]?

theorem Alike.refl (mixer : Mixer participants samples) (targets : ℕ → Prop) :
    mixer.Alike mixer targets :=
  ⟨rfl, rfl, rfl, rfl, rfl, fun _ _ ↦ rfl⟩

theorem own_giveOwn (mixer : Mixer participants samples) (index : ℕ) (frame : List Int16)
    (other : ℕ) :
    (mixer.giveOwn index frame).own[other]? =
      if other = index then mixer.own[other]?.map (overwrite · frame) else mixer.own[other]? := by
  unfold giveOwn
  rw [Vector.getElem?_mapIdx]
  split
  · rfl
  · exact Option.map_id'

/-- The frames given to one participant may differ if it is a target. -/
theorem Alike.giveOwn {mixer second : Mixer participants samples} {targets : ℕ → Prop}
    (halike : mixer.Alike second targets) {index : ℕ} {frame frame' : List Int16}
    (hframe : targets index ∨ frame' = frame) :
    (mixer.giveOwn index frame).Alike (second.giveOwn index frame') targets where
  listenerBuf := halike.listenerBuf
  participantBuf := halike.participantBuf
  hasOwn := by
    unfold Mixer.giveOwn
    rw [halike.hasOwn]
  frameLen := halike.frameLen
  participantCount := halike.participantCount
  own := by
    intro participant hnot
    rw [own_giveOwn, own_giveOwn, halike.own participant hnot]
    split
    next hsame =>
      rw [hsame] at hnot
      rw [hframe.resolve_left hnot]
    · rfl

/-- Mixers that are alike are heard alike by all but the targets. -/
theorem Alike.heard {mixer second : Mixer participants samples} {targets : ℕ → Prop}
    (halike : mixer.Alike second targets) :
    second.listenerMix = mixer.listenerMix ∧ second.participantMix = mixer.participantMix ∧
      ∀ index, ¬ targets index → second.outputFor index = mixer.outputFor index := by
  have hlistener : second.listenerMix = mixer.listenerMix := by
    unfold listenerMix
    rw [halike.listenerBuf, halike.frameLen]
  refine ⟨hlistener, ?_, fun index hnot ↦ ?_⟩
  · unfold participantMix
    rw [halike.participantBuf, halike.frameLen]
  · unfold outputFor
    rw [halike.own index hnot, halike.hasOwn, halike.participantCount, halike.frameLen, hlistener]

/-- What a whisper's target hears does not depend on its own voice if it is not heard in the room.
-/
theorem whispered_inactive (total : List ℤ) (fromRow : List Int16) {toRow toRow' : List Int16}
    (hlength : toRow.length = toRow'.length) :
    whispered false total fromRow toRow' = whispered false total fromRow toRow := by
  unfold whispered
  congr 1
  induction total generalizing toRow toRow' with
  | nil => rfl
  | cons sum total ih =>
    cases toRow with
    | nil =>
      cases toRow' with
      | nil => rfl
      | cons _ _ => cases hlength
    | cons _ toRow =>
      cases toRow' with
      | nil => cases hlength
      | cons _ toRow' =>
        rw [List.zipWith_cons_cons, List.zipWith_cons_cons, ih (Nat.succ.inj hlength)]
        simp only [Bool.false_eq_true, if_false]

theorem length_row {index : ℕ} {row : List Int16} (hrow : inputs.row index = some row) :
    row.length = inputs.frameLen := by
  unfold MixInputs.row at hrow
  split at hrow
  · split at hrow
    next hle =>
      cases hrow
      rw [List.length_take, Nat.min_eq_left hle]
    · cases hrow
  · cases hrow

/-- One whisper keeps the mixers alike but for the targets of the participant's whispers. -/
theorem Alike.hearWhisper (hdiffer : inputs.Differ other participant) {active : BitVec 64}
    (hinactive : inMask active participant = false) {total : List ℤ} {whisper : Whisper}
    (hrow : (other.row participant).isSome) {targets : ℕ → Prop}
    (htarget : whisper.source = participant → targets whisper.target)
    {mixer second next : Mixer participants samples} (halike : mixer.Alike second targets)
    (hnext : mixer.hearWhisper inputs active total whisper = some next) :
    ∃ next', second.hearWhisper other active total whisper = some next' ∧
      next.Alike next' targets := by
  unfold Mixer.hearWhisper at hnext ⊢
  rw [hdiffer.participantCount]
  split at hnext
  next hinside =>
    rw [if_pos hinside]
    split at hnext
    next fromRow toRow hfrom hto =>
      cases hnext
      -- every row of the other tick is there, and is the same but for the participant's
      have hother {index : ℕ} {row : List Int16} (hindex : inputs.row index = some row) :
          ∃ row', other.row index = some row' ∧ (index ≠ participant → row' = row) := by
        by_cases hsame : index = participant
        · obtain ⟨row', hrow'⟩ := Option.isSome_iff_exists.mp hrow
          exact ⟨row', by rw [hsame]; exact hrow', fun hne ↦ absurd hsame hne⟩
        · exact ⟨row, by rw [hdiffer.row hsame]; exact hindex, fun _ ↦ rfl⟩
      obtain ⟨fromRow', hfrom', hsource⟩ := hother hfrom
      obtain ⟨toRow', hto', hsame⟩ := hother hto
      rw [hfrom', hto']
      refine ⟨_, rfl, halike.giveOwn ?_⟩
      by_cases hparticipant : whisper.source = participant
      · exact .inl (htarget hparticipant)
      · refine .inr ?_
        rw [hsource hparticipant]
        by_cases hself : whisper.target = participant
        · rw [hself, hinactive]
          refine whispered_inactive total fromRow ?_
          rw [length_row hto, length_row hto', hdiffer.frameLen]
        · rw [hsame hself]
    · cases hnext
  next houtside =>
    rw [if_neg houtside]
    cases hnext
    exact ⟨second, rfl, halike⟩

/-- All the whispers of a tick. -/
theorem Alike.hearWhispers (hdiffer : inputs.Differ other participant) {active : BitVec 64}
    (hinactive : inMask active participant = false) {total : List ℤ} {whispers : List Whisper}
    (hrow : (other.row participant).isSome) {targets : ℕ → Prop}
    (htargets : ∀ whisper ∈ whispers, whisper.source = participant → targets whisper.target)
    {mixer second last : Mixer participants samples} (halike : mixer.Alike second targets)
    (hlast : whispers.foldlM (Mixer.hearWhisper inputs active total) mixer = some last) :
    ∃ last', whispers.foldlM (Mixer.hearWhisper other active total) second = some last' ∧
      last.Alike last' targets := by
  induction whispers generalizing mixer second with
  | nil =>
    cases hlast
    exact ⟨second, rfl, halike⟩
  | cons whisper whispers ih =>
    obtain ⟨next, hnext, hrest⟩ := Option.bind_eq_some_iff.mp hlast
    obtain ⟨next', hnext', halike'⟩ := halike.hearWhisper hdiffer hinactive hrow
      (htargets whisper (by simp)) hnext
    obtain ⟨last', hlast', hresult⟩ := ih
      (fun whisper hwhisper ↦ htargets whisper (List.mem_cons_of_mem _ hwhisper)) halike' hrest
    exact ⟨last', Option.bind_eq_some_iff.mpr ⟨next', hnext', hlast'⟩, hresult⟩

theorem share_differ (hdiffer : inputs.Differ other participant)
    (mixer : Mixer participants samples) (room total : List ℤ) :
    mixer.share other room total = mixer.share inputs room total := by
  unfold share
  rw [hdiffer.participantCount, hdiffer.frameLen]

/-- A private source is not among the active speakers. -/
theorem inMask_private {sources : BitVec 64} {topM : ℕ} (hroles : inputs.roles.length ≤ 64)
    (hparticipant : participant < 64) (hprivate : inMask sources participant = true) :
    inMask (selectActiveSpeakers inputs sources topM) participant = false := by
  rw [Bool.eq_false_iff]
  intro hactive
  have hcandidate := isCandidate_of_inMask hroles hparticipant hactive
  rw [isCandidate_private hprivate] at hcandidate
  cases hcandidate

/-- A whisper stays private. Assumes: two frames of the room that differ at most in what one
whispering participant says, and that the first of them is mixed. Then the second is mixed too, with
the same active speakers and the same listener and room mixes, and only the targets of the
participant's whispers hear a difference. -/
theorem whisper_private {mixer mixed : Mixer participants samples} {whispers : List Whisper}
    {topM : ℕ} {active : BitVec 64}
    (hwhispers : ∃ whisper ∈ whispers, whisper.source = participant)
    (hparticipant : participant < inputs.participantCount)
    (hdiffer : inputs.Differ other participant) (hrow : (other.row participant).isSome)
    (hmix : mixer.mix inputs whispers [] topM = some (active, mixed)) :
    ∃ mixed', mixer.mix other whispers [] topM = some (active, mixed') ∧
      mixed'.listenerMix = mixed.listenerMix ∧ mixed'.participantMix = mixed.participantMix ∧
      ∀ index, (∀ whisper ∈ whispers, whisper.source = participant → whisper.target ≠ index) →
        mixed'.outputFor index = mixed.outputFor index := by
  unfold mix at hmix ⊢
  split at hmix
  next hguard =>
    obtain ⟨hcapacity, hroles, henergy, hspeaking, hframe⟩ := hguard
    have hcount : inputs.participantCount ≤ 64 :=
      Nat.le_trans hcapacity mixer.participants_le
    rw [hdiffer.participantCount, hdiffer.roles, hdiffer.energies, hdiffer.flags, hdiffer.frameLen,
      if_pos ⟨hcapacity, hroles, henergy, hspeaking, hframe⟩]
    obtain ⟨whisper, hwhisper, hsource⟩ := hwhispers
    have hprivate :
        inMask (privateSources whispers inputs.participantCount) participant = true := by
      rw [← hsource] at hparticipant ⊢
      exact inMask_privateSources hcount hwhisper hparticipant
    have hinactive := @inMask_private inputs participant _ topM (by omega)
      (Nat.lt_of_lt_of_le hparticipant hcount) hprivate
    rw [selectActiveSpeakers_differ hdiffer hprivate, hdiffer.external]
    simp only [addRow_differ hdiffer hinactive, hearRoom_differ hdiffer hinactive,
      share_differ hdiffer, List.foldlM_nil, pure_bind] at hmix ⊢
    obtain ⟨room, hroom, hmix⟩ := Option.bind_eq_some_iff.mp hmix
    obtain ⟨talkers, htalkers, hmix⟩ := Option.bind_eq_some_iff.mp hmix
    obtain ⟨last, hlast, hmix⟩ := Option.bind_eq_some_iff.mp hmix
    cases hmix
    obtain ⟨last', hlast', halike⟩ := (Alike.refl talkers fun index ↦
      ∃ whisper ∈ whispers, whisper.source = participant ∧ whisper.target = index).hearWhispers
        hdiffer hinactive hrow (fun whisper hin hfrom ↦ ⟨whisper, hin, hfrom, rfl⟩) hlast
    obtain ⟨hlistener, hlocal, houtputs⟩ := halike.heard
    refine ⟨last', ?_, hlistener, hlocal, fun index hnot ↦ houtputs index ?_⟩
    · refine Option.bind_eq_some_iff.mpr ⟨room, hroom, ?_⟩
      refine Option.bind_eq_some_iff.mpr ⟨talkers, htalkers, ?_⟩
      exact Option.bind_eq_some_iff.mpr ⟨last', hlast', rfl⟩
    · rintro ⟨other, hother, hfrom, hto⟩
      exact hnot other hother hfrom hto
  · cases hmix

/-- Three talkers, the first of whom says something. -/
def threeTalkers (said : Int16) (energy : ℤ) (speaking : Bool) : MixInputs where
  pcm := [[said], [200], [40]]
  roles := [.talker, .talker, .talker]
  energy := [energy, 40000, 1600]
  speaking := [speaking, true, true]
  external := none
  frameLen := 1

theorem differ_threeTalkers (said said' : Int16) (energy energy' : ℤ) (speaking speaking' : Bool) :
    (threeTalkers said energy speaking).Differ (threeTalkers said' energy' speaking') 0 := by
  refine ⟨rfl, fun index hindex ↦ ?_, rfl, rfl, fun index hindex ↦ ?_, rfl, fun index hindex ↦ ?_,
    rfl, rfl⟩ <;>
  · cases index with
    | zero => exact absurd rfl hindex
    | succ index => rfl

theorem coached_room_private :
    ∃ active mixed mixed',
      (new 3 1).mix (threeTalkers 100 10000 true) [⟨0, 1⟩] [] 1 = some (active, mixed) ∧
      (new 3 1).mix (threeTalkers 7 49 false) [⟨0, 1⟩] [] 1 = some (active, mixed') ∧
      mixed'.listenerMix = mixed.listenerMix ∧ mixed'.outputFor 2 = mixed.outputFor 2 := by
  have hsome : ((new 3 1).mix (threeTalkers 100 10000 true) [⟨0, 1⟩] [] 1).isSome = true := by
    decide +kernel
  obtain ⟨⟨active, mixed⟩, hmix⟩ := Option.isSome_iff_exists.mp hsome
  obtain ⟨mixed', hmix', hlistener, -, houtputs⟩ := whisper_private ⟨⟨0, 1⟩, by simp, rfl⟩
    (by decide) (differ_threeTalkers 100 7 10000 49 true false) (by decide) hmix
  exact ⟨active, mixed, mixed', hmix, hmix', hlistener, houtputs 2 (by simp)⟩

end Mixer

end SiphonRtp.Media
