import SiphonRtp.Media.T140

/-!
# Text cut into packets

What the receiver of `t140.rs` shows of octets that arrive in consecutive packets, in order and
without loss. A character that a packet splits is kept until the next packet brings the rest of it
(`pushText`). As long as what follows does go on with the character (`GoesOn`), the text is the
lossy decoding of the octets in one piece (`text_of_chunks`), with the replacement character that
stands for a character unfinished at the end (`flushText`; the source has no such flush and keeps
the octets).

Where what follows does not go on with the character, the source fills it up with as many octets as
the first one asks for and gives one replacement character for all of them, so that whole characters
among them are lost (`letters_after_a_split_are_lost`). The loop for the octets in one packet skips
only those that are at fault.
-/

set_option autoImplicit false

namespace SiphonRtp.Media

open SiphonRtp.Machine

/-! ### The length of a character -/

theorem utf8LeadLength_several {lead : UInt8} (hlead : LeadsSeveral lead) :
    utf8LeadLength lead =
      some (if lead.toNat < 0xE0 then 2 else if lead.toNat < 0xF0 then 3 else 4) := by
  have htable : ∀ n : Fin 256, 0xC2 ≤ n.val → n.val ≤ 0xF4 →
      utf8LeadLength (UInt8.ofNat n.val) =
        some (if n.val < 0xE0 then 2 else if n.val < 0xF0 then 3 else 4) := by decide +kernel
  obtain ⟨hlow, hhigh⟩ := leadsSeveral_iff.mp hlead
  have hentry := htable ⟨lead.toNat, lead.toNat_lt⟩ hlow hhigh
  rwa [UInt8.ofNat_toNat] at hentry

theorem utf8LeadLength_encode {char : Char} {lead : UInt8} {rest : Bytes}
    (hchar : String.utf8EncodeChar char = lead :: rest) (hlead : LeadsSeveral lead) :
    utf8LeadLength lead = some (lead :: rest).length := by
  rw [utf8LeadLength_several hlead]
  rw [leadsSeveral_iff] at hlead
  rw [String.utf8EncodeChar] at hchar
  split_ifs at hchar <;> obtain ⟨rfl, rfl⟩ := List.cons.inj hchar <;>
    rw [UInt8.toNat_ofNat'] at hlead ⊢
  · omega
  · rw [if_pos (by omega)]
    rfl
  · rw [if_neg (by omega), if_pos (by omega)]
    rfl
  · rw [if_neg (by omega), if_neg (by omega)]
    rfl

/-- An unfinished character lacks some octet of those that its first one asks for. -/
theorem needed_of_unfinished {lead : UInt8} {rest : Bytes} (hpending : Unfinished (lead :: rest)) :
    LeadsSeveral lead ∧
      ∃ needed, utf8LeadLength lead = some needed ∧ (lead :: rest).length < needed := by
  have hwhole {bytes : Bytes} (hbytes : lead :: rest = bytes) :
      ¬ ∃ char, String.utf8EncodeChar char = bytes := by
    rintro ⟨char, rfl⟩
    have hchar := hpending.char
    rw [hbytes, ← List.append_nil (String.utf8EncodeChar char), utf8Char_encode] at hchar
    cases hchar
  obtain hnil | ⟨first, hlead, hrest⟩ := utf8Fault_incomplete_iff.mp hpending.fault
  · cases hnil
  obtain rfl : lead = first := by
    rcases hrest with hrest | ⟨second, -, hrest | ⟨third, -, hrest⟩⟩ <;>
      exact (List.cons.inj hrest).1
  refine ⟨hlead, _, utf8LeadLength_several hlead, ?_⟩
  rcases hrest with hrest | ⟨second, hfits, hrest | ⟨third, hthird, hrest⟩⟩
  · rw [hrest, List.length_singleton]
    split_ifs <;> omega
  · have hlow : ¬ lead.toNat < 0xE0 := fun hlow ↦
      hwhole hrest (exists_char_of_two hlead hfits hlow)
    rw [hrest, List.length_cons, List.length_singleton]
    split_ifs <;> omega
  · have hlow : ¬ lead.toNat < 0xE0 := fun hlow ↦ by
      obtain ⟨char, hchar⟩ := exists_char_of_two hlead hfits hlow
      have hnone := hpending.char
      rw [hrest, show [lead, second, third] = [lead, second] ++ [third] from rfl, ← hchar,
        utf8Char_encode] at hnone
      cases hnone
    have hmiddle : ¬ lead.toNat < 0xF0 := fun hmiddle ↦
      hwhole hrest (exists_char_of_three hfits hthird (not_lt.mp hlow) hmiddle)
    rw [hrest, if_neg hlow, if_neg hmiddle]
    simp

/-! ### One packet -/

/-- What is left of the octets of a packet, with what follows, decodes as the packet would have with
what follows. -/
structure Decodes (bytes : Bytes) (pushed : List Char × Bytes) : Prop where
  unfinished : Unfinished pushed.2
  suffix : pushed.2 <:+ bytes
  lossy : ∀ later, decodeLossy (bytes ++ later) = pushed.1 ++ decodeLossy (pushed.2 ++ later)

theorem Decodes.of_text {text : List Char} {bytes rest : Bytes} {pushed : List Char × Bytes}
    (hbytes : bytes = encodeUtf8 text ++ rest) (hrest : Decodes rest pushed) :
    Decodes bytes (text ++ pushed.1, pushed.2) where
  unfinished := hrest.unfinished
  suffix := hbytes ▸ hrest.suffix.trans (List.suffix_append _ _)
  lossy later := by
    rw [hbytes, List.append_assoc, decodeLossy_encodeUtf8_append, hrest.lossy, List.append_assoc]

theorem decodes_pushWhole (bytes : Bytes) : Decodes bytes (pushWhole bytes) := by
  induction hlength : bytes.length using Nat.strong_induction_on generalizing bytes with
  | _ size ih =>
    unfold pushWhole
    split
    next text rest hdecode =>
      obtain ⟨hbytes, -, hrest⟩ := decodeUtf8_spec hdecode
      have hnil : Decodes rest ([], []) := ⟨unfinished_nil, List.nil_suffix, fun later ↦ by
        rw [hrest]
        rfl⟩
      simpa using hnil.of_text hbytes
    next text rest hdecode =>
      obtain ⟨hbytes, hchar, hfault⟩ := decodeUtf8_spec hdecode
      have hrest : Unfinished rest := ⟨hchar, hfault⟩
      have htake : rest.take 4 = rest := List.take_of_length_le (by have := hrest.length_le; omega)
      have hkept : Decodes rest ([], rest) := ⟨hrest, List.suffix_rfl, fun later ↦ rfl⟩
      rw [htake]
      simpa using hkept.of_text hbytes
    next text rest length hdecode =>
      obtain ⟨hbytes, hchar, hfault⟩ := decodeUtf8_spec hdecode
      obtain ⟨-, hle, -⟩ := decodeUtf8_fault hdecode
      have hshort : (rest.drop length).length < size := by
        have hbounds := utf8Fault_bounds hfault
        rw [List.length_drop]
        omega
      have hlater := ih _ hshort _ rfl
      have hrest : Decodes rest (missingTextMarker :: (pushWhole (rest.drop length)).1,
          (pushWhole (rest.drop length)).2) := by
        refine ⟨hlater.unfinished, hlater.suffix.trans (List.drop_suffix _ _), fun later ↦ ?_⟩
        rw [decodeLossy_fault_append hchar hfault, hlater.lossy]
        rfl
      exact hrest.of_text hbytes

/-- A packet goes on with the character that was split before it: the octets begin with a character
now, or still lack the end of one. -/
def GoesOn (pending bytes : Bytes) : Prop :=
  pending ≠ [] → utf8Char (pending ++ bytes) = none → utf8Fault (pending ++ bytes) = .incomplete

/-- Octets that complete a character. -/
theorem decodes_completed {lead : UInt8} {rest bytes later : Bytes} {char : Char}
    (hpending : Unfinished (lead :: rest))
    (hchar : lead :: rest ++ bytes = String.utf8EncodeChar char ++ later) :
    Decodes (lead :: rest ++ bytes) (pushText (lead :: rest) bytes) := by
  obtain ⟨hlead, needed, hneeded, hshort⟩ := needed_of_unfinished hpending
  have hsize : needed = (String.utf8EncodeChar char).length := by
    rcases hencode : String.utf8EncodeChar char with _ | ⟨first, tail⟩
    · simp at hencode
    · rw [hencode] at hchar
      obtain rfl : lead = first := (List.cons.inj hchar).1
      rw [utf8LeadLength_encode hencode hlead] at hneeded
      exact (Option.some.inj hneeded).symm
  have htake : lead :: rest ++ bytes.take (needed - (lead :: rest).length) =
      String.utf8EncodeChar char := by
    have hfilled := congrArg (List.take needed) hchar
    rwa [List.take_append, List.take_of_length_le hshort.le, hsize, List.take_left, ← hsize]
      at hfilled
  have hdrop : bytes.drop (needed - (lead :: rest).length) = later := by
    have hleft := congrArg (List.drop needed) hchar
    rwa [List.drop_append, List.drop_of_length_le hshort.le, hsize, List.drop_left, ← hsize]
      at hleft
  have hdecode : decodeUtf8 (String.utf8EncodeChar char) = ([char], [], none) := by
    have hone := decodeUtf8_encodeUtf8 [char]
    rwa [encodeUtf8_cons, show encodeUtf8 [] = [] from rfl, List.append_nil] at hone
  rw [pushText]
  rw [hneeded]
  dsimp only
  rw [htake, hdrop, if_neg (by omega), hsize, List.take_length, hdecode]
  have hbytes : lead :: rest ++ bytes = encodeUtf8 [char] ++ later := by
    rw [hchar]
    simp [encodeUtf8]
  exact (decodes_pushWhole later).of_text hbytes

theorem decodes_pushText {pending bytes : Bytes} (hpending : Unfinished pending)
    (hgoes : GoesOn pending bytes) : Decodes (pending ++ bytes) (pushText pending bytes) := by
  rcases pending with _ | ⟨lead, rest⟩
  · exact decodes_pushWhole bytes
  cases hchar : utf8Char (lead :: rest ++ bytes) with
  | some char =>
    obtain ⟨later, hlater⟩ := exists_of_utf8Char hchar
    exact decodes_completed hpending hlater
  | none =>
    have hboth : Unfinished (lead :: rest ++ bytes) :=
      ⟨hchar, hgoes (List.cons_ne_nil _ _) hchar⟩
    obtain ⟨-, needed, hneeded, hshort⟩ := needed_of_unfinished hboth
    replace hshort : (lead :: rest ++ bytes).length < needed := hshort
    have htake : bytes.take (needed - (lead :: rest).length) = bytes := by
      rw [List.length_append] at hshort
      exact List.take_of_length_le (by omega)
    rw [pushText]
    rw [hneeded]
    dsimp only
    rw [htake, if_pos hshort]
    exact ⟨hboth, List.suffix_rfl, fun later ↦ rfl⟩

/-! ### All packets -/

/-- The text for what is left when no more packets come. -/
def flushText (pending : Bytes) : List Char :=
  if pending = [] then [] else [missingTextMarker]

/-- The octets from a character boundary on, cut anywhere, go on with the character that the cut
splits. -/
theorem goesOn_of_isWhole {pending bytes later : Bytes}
    (hwhole : IsWhole (pending ++ bytes ++ later)) : GoesOn pending bytes := by
  intro hne hnone
  have hboth : pending ++ bytes ≠ [] := fun hnil ↦ hne (List.append_eq_nil_iff.mp hnil).1
  obtain ⟨text, htext⟩ := hwhole
  rcases text with _ | ⟨char, text⟩
  · exact absurd (List.append_eq_nil_iff.mp htext).1 hboth
  rcases List.append_eq_append_iff.mp htext with ⟨missing, hmissing, -⟩ | ⟨more, hmore, -⟩
  · by_cases hend : missing = []
    · rw [hend, List.append_nil] at hmissing
      rw [← hmissing, ← List.append_nil (String.utf8EncodeChar char), utf8Char_encode] at hnone
      cases hnone
    · exact utf8Fault_of_isPrefix hboth hend hmissing
  · rw [hmore, utf8Char_encode] at hnone
    cases hnone

/-- What is carried over is at a character boundary when the whole is a text. -/
theorem isWhole_of_suffix {before pending later : Bytes} (hpending : Unfinished pending)
    (hwhole : IsWhole (before ++ pending ++ later)) :
    pending = [] ∨ IsWhole (pending ++ later) := by
  rcases pending with _ | ⟨lead, rest⟩
  · exact Or.inl rfl
  right
  obtain ⟨hlead, -⟩ := needed_of_unfinished hpending
  obtain ⟨text, htext⟩ := hwhole
  rw [List.append_assoc] at htext
  have hcount : before.length < (encodeUtf8 text).length := by
    rw [← htext]
    simp
  have hdrop := (isWhole_drop_iff text hcount).mpr (by
    rw [← htext]
    rw [leadsSeveral_iff] at hlead
    simp only [octet, IsContinuation]
    simp
    omega)
  rwa [← htext, List.drop_left] at hdrop

theorem chunks_lossy {chunks : List Bytes} {pending : Bytes} (hpending : Unfinished pending)
    (hgoes : ∀ k chunk, chunks[k]? = some chunk →
      GoesOn (final pushText pending (chunks.take k)) chunk) :
    (outputs pushText pending chunks).flatten ++ flushText (final pushText pending chunks) =
      decodeLossy (pending ++ chunks.flatten) := by
  induction chunks generalizing pending with
  | nil =>
    simp only [outputs_nil, final_nil, List.flatten_nil, List.append_nil, List.nil_append]
    rw [flushText]
    split_ifs with hnil
    · rw [hnil, decodeLossy_nil]
    · exact (hpending.decodeLossy hnil).symm
  | cons chunk chunks ih =>
    have hstep := decodes_pushText hpending (hgoes 0 chunk rfl)
    have hlater := ih hstep.unfinished fun k other hother ↦ hgoes (k + 1) other hother
    rw [outputs_cons, final_cons, List.flatten_cons, List.append_assoc, hlater, List.flatten_cons,
      ← List.append_assoc, hstep.lossy]

section Text

variable {chunks : List Bytes}

theorem goesOn_of_suffix (hwhole : IsWhole chunks.flatten) {k : ℕ} {chunk pending : Bytes}
    (hchunk : chunks[k]? = some chunk) (hpending : Unfinished pending)
    (hsuffix : pending <:+ (chunks.take k).flatten) : GoesOn pending chunk := by
  obtain ⟨before, hbefore⟩ := hsuffix
  obtain ⟨hk, rfl⟩ := List.getElem?_eq_some_iff.mp hchunk
  have hsplit : chunks.flatten =
      before ++ pending ++ (chunks[k] ++ (chunks.drop (k + 1)).flatten) := by
    rw [hbefore, ← List.flatten_cons, ← List.flatten_append, ← List.drop_eq_getElem_cons hk,
      List.take_append_drop]
  rw [hsplit] at hwhole
  rcases isWhole_of_suffix hpending hwhole with rfl | hrest
  · exact fun hne ↦ absurd rfl hne
  · exact goesOn_of_isWhole (by rwa [List.append_assoc])

/-- What is carried over is the end of what has come. -/
theorem final_pushText_suffix (hwhole : IsWhole chunks.flatten) {k : ℕ} (hk : k ≤ chunks.length) :
    Unfinished (final pushText [] (chunks.take k)) ∧
      final pushText [] (chunks.take k) <:+ (chunks.take k).flatten := by
  refine final_take_induction
    (fun k pending ↦ Unfinished pending ∧ pending <:+ (chunks.take k).flatten)
    ⟨unfinished_nil, List.nil_suffix⟩ (fun k chunk hchunk hbefore ↦ ?_) hk
  have hstep := decodes_pushText hbefore.1 (goesOn_of_suffix hwhole hchunk hbefore.1 hbefore.2)
  obtain ⟨before, hbefore⟩ := hbefore.2
  refine ⟨hstep.unfinished, hstep.suffix.trans ⟨before, ?_⟩⟩
  rw [List.take_add_one, hchunk, Option.toList_some, List.flatten_append, List.flatten_singleton,
    ← List.append_assoc, hbefore]

/-- The octets of a text go on in every packet, however they are cut. -/
theorem goesOn_of_text (hwhole : IsWhole chunks.flatten) {k : ℕ} {chunk : Bytes}
    (hchunk : chunks[k]? = some chunk) : GoesOn (final pushText [] (chunks.take k)) chunk := by
  have hbefore := final_pushText_suffix hwhole (List.getElem?_eq_some_iff.mp hchunk).1.le
  exact goesOn_of_suffix hwhole hchunk hbefore.1 hbefore.2

/-- Nothing is left of a text at its end. -/
theorem final_pushText_of_text (hwhole : IsWhole chunks.flatten) :
    final pushText [] chunks = [] := by
  obtain ⟨hpending, before, hbefore⟩ := final_pushText_suffix hwhole le_rfl
  rw [List.take_length] at hpending hbefore
  rcases @isWhole_of_suffix _ _ [] hpending (by rwa [hbefore, List.append_nil]) with
    hnil | ⟨_ | ⟨char, text⟩, htext⟩
  · exact hnil
  · rwa [List.append_nil] at htext
  · have hnone := hpending.char
    rw [List.append_nil] at htext
    rw [htext, encodeUtf8_cons, utf8Char_encode] at hnone
    cases hnone

end Text

/-! ### The receiver -/

/-- A packet that arrives. -/
structure TextArrival where
  sequence : UInt16
  timestamp : UInt32
  payload : Bytes
  isRed : Bool

/-- The receiver takes a packet. -/
def T140Reassembler.receive (reassembler : T140Reassembler) (arrival : TextArrival) :
    Except RedError T140Output × T140Reassembler :=
  reassembler.onPacket arrival.sequence arrival.timestamp arrival.payload arrival.isRed

/-- The packets are consecutive ones from `first` on and carry the octets, one part each. -/
def Carries : UInt16 → List TextArrival → List Bytes → Prop
  | _, [], [] => True
  | first, arrival :: arrivals, chunk :: chunks =>
    arrival.sequence = first ∧
      (∃ redundant, depacketize arrival.payload arrival.isRed = .ok (redundant, chunk)) ∧
      Carries (first + 1) arrivals chunks
  | _, _, _ => False

/-- The text that the receiver emits. -/
def emittedText (emitted : List (Except RedError T140Output)) : List Char :=
  emitted.flatMap fun
    | .ok output => output.text
    | .error _ => []

/-- A packet that the receiver waits for, or the first of all. -/
theorem receive_next {reassembler : T140Reassembler} {arrival : TextArrival}
    {redundant : List RedBlock} {chunk : Bytes}
    (hexpected : ∀ expected, reassembler.expectedSequence = some expected →
      arrival.sequence = expected)
    (hpayload : depacketize arrival.payload arrival.isRed = .ok (redundant, chunk)) :
    ∃ after, reassembler.receive arrival =
        (.ok ⟨(pushText reassembler.partialChar chunk).1, 0, 0⟩, after) ∧
      after.expectedSequence = some (arrival.sequence + 1) ∧
      after.partialChar = (pushText reassembler.partialChar chunk).2 := by
  rw [T140Reassembler.receive, T140Reassembler.onPacket, hpayload]
  dsimp only [T140Reassembler.raise]
  rcases hnext : reassembler.expectedSequence with _ | expected
  · exact ⟨_, rfl, rfl, rfl⟩
  · have hserial : serial (arrival.sequence - expected) = 0 := by
      rw [hexpected expected hnext, UInt16.sub_self]
      rfl
    dsimp only
    rw [hserial]
    refine ⟨_, Prod.ext ?_ rfl, ?_, ?_⟩
    · simp [T140Reassembler.deliver, pushBlocks]
    · rfl
    · simp [T140Reassembler.deliver, pushBlocks]

theorem run_carries {first : UInt16} {arrivals : List TextArrival} {chunks : List Bytes}
    (hcarries : Carries first arrivals chunks) {reassembler : T140Reassembler}
    (hexpected : ∀ expected, reassembler.expectedSequence = some expected → first = expected) :
    emittedText (outputs T140Reassembler.receive reassembler arrivals) =
        (outputs pushText reassembler.partialChar chunks).flatten ∧
      (final T140Reassembler.receive reassembler arrivals).partialChar =
        final pushText reassembler.partialChar chunks := by
  induction arrivals generalizing first chunks reassembler with
  | nil =>
    rcases chunks with _ | ⟨chunk, chunks⟩
    · exact ⟨rfl, rfl⟩
    · exact hcarries.elim
  | cons arrival arrivals ih =>
    rcases chunks with _ | ⟨chunk, chunks⟩
    · exact hcarries.elim
    obtain ⟨rfl, ⟨redundant, hpayload⟩, hrest⟩ := hcarries
    obtain ⟨after, hafter, hnext, hpartial⟩ := receive_next hexpected hpayload
    obtain ⟨htext, hfinal⟩ := @ih _ _ hrest after fun expected hsome ↦ by
      rw [hnext] at hsome
      exact Option.some.inj hsome
    rw [outputs_cons, final_cons, hafter, outputs_cons, final_cons, ← hpartial]
    exact ⟨congrArg _ htext, hfinal⟩

/-- Text survives being cut into packets. Assumes: the chunks arrive in consecutive packets. They
give the text that their octets would give in one piece, as long as every packet goes on with the
character that was split before it. The octets of a text do, wherever they are cut. -/
theorem text_of_chunks {first : UInt16} {arrivals : List TextArrival} {chunks : List Bytes}
    (hcarries : Carries first arrivals chunks) :
    ((∀ k chunk, chunks[k]? = some chunk → GoesOn (final pushText [] (chunks.take k)) chunk) →
      emittedText (outputs T140Reassembler.receive .new arrivals) ++
          flushText (final T140Reassembler.receive .new arrivals).partialChar =
        decodeLossy chunks.flatten) ∧
    ∀ text, chunks.flatten = encodeUtf8 text →
      emittedText (outputs T140Reassembler.receive .new arrivals) = text := by
  obtain ⟨hemitted, hfinal⟩ := @run_carries _ _ _ hcarries .new (fun _ h ↦ by cases h)
  rw [hemitted, hfinal]
  refine ⟨fun hgoes ↦ chunks_lossy unfinished_nil hgoes, fun text htext ↦ ?_⟩
  have hwhole : IsWhole chunks.flatten := ⟨text, htext⟩
  have hlossy := chunks_lossy unfinished_nil fun k chunk hchunk ↦ goesOn_of_text hwhole hchunk
  have hall := decodeLossy_encodeUtf8_append text []
  rw [decodeLossy_nil, List.append_nil] at hall
  rw [final_pushText_of_text hwhole, List.nil_append, htext, hall] at hlossy
  simpa [flushText, T140Reassembler.new] using hlossy

/-- A character of three octets in two packets. -/
def splitEuro : List TextArrival := [⟨0, 0, [0xE2], false⟩, ⟨1, 300, [0x82, 0xAC], false⟩]

theorem euro_survives_split :
    Carries 0 splitEuro [[0xE2], [0x82, 0xAC]] ∧
      emittedText (outputs T140Reassembler.receive .new splitEuro) = ['€'] := by
  have hcarries : Carries 0 splitEuro [[0xE2], [0x82, 0xAC]] :=
    ⟨rfl, ⟨[], rfl⟩, rfl, ⟨[], rfl⟩, trivial⟩
  exact ⟨hcarries, (text_of_chunks hcarries).2 ['€'] (by decide)⟩

/-- The first octet of a character of three, and two letters in the next packet: the letters are
lost. In one piece they are not. -/
theorem letters_after_a_split_are_lost :
    ∃ arrivals chunks, Carries 0 arrivals chunks ∧ chunks.flatten = [0xE0, 0x41, 0x42] ∧
      emittedText (outputs T140Reassembler.receive .new arrivals) ++
          flushText (final T140Reassembler.receive .new arrivals).partialChar = ['\uFFFD'] ∧
      decodeLossy chunks.flatten = ['\uFFFD', 'A', 'B'] := by
  refine ⟨[⟨0, 0, [0xE0], false⟩, ⟨1, 300, [0x41, 0x42], false⟩], [[0xE0], [0x41, 0x42]],
    ⟨rfl, ⟨[], rfl⟩, rfl, ⟨[], rfl⟩, trivial⟩, rfl, ?_, ?_⟩
  · decide +kernel
  · decide +kernel

end SiphonRtp.Media
