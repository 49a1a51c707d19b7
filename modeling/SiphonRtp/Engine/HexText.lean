import SiphonRtp.Engine.Hex
import SiphonRtp.Machine.Text
import SiphonRtp.Machine.Utf8

/-!
# Hex decoding of any text

`from_hex` of `siphon-rtp-engine/src/ha.rs` on a text of any characters: `fromHex` on its UTF-8
octets. A slice that ends inside a character panics, and `u8::from_str_radix`, which each slice goes
to, also takes a plus sign and one digit.

`fromHexText_panicked_iff` and `fromHexText_some_iff` say on which texts it panics and on which it
returns octets, both by the pairs of characters that were taken before.
-/

set_option autoImplicit false

namespace SiphonRtp.Engine

open Machine

/-- `from_hex` on a text. -/
def fromHexText (text : List Char) : HexOutcome := fromHex (encodeUtf8 text)

/-- The text that `to_hex` writes. -/
def toHexText (bytes : Bytes) : List Char := (toHex bytes).map fun octet ↦ Char.ofNat octet.toNat

/-! ### Characters -/

def isHexDigit (char : Char) : Bool :=
  decide ('0' ≤ char ∧ char ≤ '9' ∨ 'a' ≤ char ∧ char ≤ 'f' ∨ 'A' ≤ char ∧ char ≤ 'F')

/-- An even number of hexadecimal digits. -/
def IsHexText (text : List Char) : Prop :=
  text.length % 2 = 0 ∧ ∀ char ∈ text, isHexDigit char = true

/-- The octet of a pair of ASCII characters. -/
def pairOctet (first second : Char) : Option UInt8 :=
  fromStrRadix (UInt8.ofNat first.toNat) (UInt8.ofNat second.toNat)

/-- A pair of characters that is taken: two digits, or a plus sign and a digit. -/
def TakenPair (pair : Char × Char) : Prop :=
  (isHexDigit pair.1 = true ∨ pair.1 = '+') ∧ isHexDigit pair.2 = true

/-- A text whose first two octets end inside a character. -/
def SplitsCharacter : List Char → Prop
  | [] => False
  | [char] => 0x7FF < char.toNat
  | first :: second :: _ =>
    0x7FF < first.toNat ∨ (first.toNat ≤ 0x7F ∧ 0x7F < second.toNat)

/-- The characters of pairs. -/
def unpair (pairs : List (Char × Char)) : List Char := pairs.flatMap fun pair ↦ [pair.1, pair.2]

@[simp] theorem unpair_cons (first second : Char) (pairs : List (Char × Char)) :
    unpair ((first, second) :: pairs) = first :: second :: unpair pairs := rfl

theorem length_unpair (pairs : List (Char × Char)) : (unpair pairs).length = 2 * pairs.length := by
  induction pairs with
  | nil => rfl
  | cons pair pairs ih =>
    rw [unpair_cons, List.length_cons, List.length_cons, List.length_cons]
    omega

/-- A hexadecimal digit is an ASCII character. -/
theorem toNat_le_of_isHexDigit {char : Char} (hdigit : isHexDigit char = true) :
    char.toNat ≤ 0x7F := by
  have hdigit := of_decide_eq_true hdigit
  rcases hdigit with ⟨-, h⟩ | ⟨-, h⟩ | ⟨-, h⟩ <;> exact le_trans h (by decide)

theorem isSome_digitValue {char : Char} (hchar : char.toNat ≤ 0x7F) :
    (digitValue (UInt8.ofNat char.toNat)).isSome = isHexDigit char := by
  exact @of_ascii (fun char ↦ (digitValue (UInt8.ofNat char.toNat)).isSome = isHexDigit char)
    (by decide +kernel) char (Nat.lt_succ_of_le hchar)

theorem eq_plus_iff {char : Char} (hchar : char.toNat ≤ 0x7F) :
    UInt8.ofNat char.toNat = 43 ↔ char = '+' := by
  exact @of_ascii (fun char ↦ UInt8.ofNat char.toNat = 43 ↔ char = '+') (by decide +kernel) char
    (Nat.lt_succ_of_le hchar)

/-- The pairs that are taken. -/
theorem isSome_pairOctet_iff {first second : Char} (hfirst : first.toNat ≤ 0x7F)
    (hsecond : second.toNat ≤ 0x7F) :
    (pairOctet first second).isSome = true ↔ TakenPair (first, second) := by
  unfold pairOctet fromStrRadix TakenPair
  rw [← isSome_digitValue hsecond, ← isSome_digitValue hfirst]
  split_ifs with hsign
  · have hchar := (eq_plus_iff hfirst).mp hsign
    simp [hchar]
  · have hchar : first ≠ '+' := fun h ↦ hsign ((eq_plus_iff hfirst).mpr h)
    cases digitValue (UInt8.ofNat first.toNat) <;>
      cases digitValue (UInt8.ofNat second.toNat) <;> simp [hchar]

/-! ### Octets of characters -/

theorem encode_ascii {char : Char} (hchar : char.toNat ≤ 0x7F) :
    String.utf8EncodeChar char = [UInt8.ofNat char.toNat] := by
  have hval : char.val.toNat ≤ 127 := hchar
  exact if_pos hval

theorem boundaryBefore_cons (octet : UInt8) (rest : Bytes) :
    boundaryBefore (octet :: rest) = decide (¬ IsContinuation octet) := by
  rfl

/-- The octets of a character that is not ASCII: a leading one, and continuations of which there is
one exactly up to U+07FF. -/
theorem encode_wide {char : Char} (hchar : 0x7F < char.toNat) (after : Bytes) :
    ∃ first second : UInt8, ∃ rest : Bytes,
      String.utf8EncodeChar char ++ after = first :: second :: rest ∧ 0xC0 ≤ first ∧
        boundaryBefore (second :: rest) = false ∧
        (char.toNat ≤ 0x7FF → rest = after) ∧
        (0x7FF < char.toNat → boundaryBefore rest = false) := by
  obtain ⟨first, tail, hencode, -, hlead, htail⟩ := utf8EncodeChar_shape char
  have hgoes (octet : UInt8) (rest : Bytes) (hmem : octet ∈ tail) :
      boundaryBefore (octet :: rest) = false := by
    rw [boundaryBefore_cons, decide_eq_false_iff_not, not_not]
    exact htail octet hmem
  have hsize : tail.length + 1 = char.utf8Size := by
    rw [← String.length_utf8EncodeChar, hencode, List.length_cons]
  have hcount : 1 ≤ tail.length ∧ (char.toNat ≤ 0x7FF ↔ tail.length = 1) := by
    unfold Char.utf8Size at hsize
    simp only [UInt32.le_iff_toNat_le] at hsize
    split_ifs at hsize <;> simp at * <;> omega
  rw [hencode]
  rcases tail with _ | ⟨second, _ | ⟨third, rest⟩⟩
  · exact absurd hcount.1 (Nat.not_succ_le_zero 0)
  · refine ⟨first, second, after, rfl, hlead hchar, hgoes _ _ (by simp), fun _ ↦ rfl, fun h ↦ ?_⟩
    exact absurd (hcount.2.mpr rfl) (Nat.not_le.mpr h)
  · refine ⟨first, second, third :: rest ++ after, rfl, hlead hchar, hgoes _ _ (by simp),
      fun h ↦ ?_, fun _ ↦ hgoes _ _ (by simp)⟩
    have hone := hcount.2.mp h
    simp at hone

theorem boundaryBefore_encodeUtf8 (text : List Char) : boundaryBefore (encodeUtf8 text) = true := by
  cases text with
  | nil => rfl
  | cons char text =>
    obtain ⟨first, tail, hencode, hfirst, -⟩ := utf8EncodeChar_shape char
    rw [encodeUtf8_cons, hencode]
    exact decide_eq_true hfirst

/-! ### One slice -/

/-- The first slice of a text. -/
theorem text_cases (text : List Char) :
    text = [] ∨ (∃ char, text = [char] ∧ char.toNat ≤ 0x7F) ∨ SplitsCharacter text ∨
      (∃ char rest, text = char :: rest ∧ 0x7F < char.toNat ∧ char.toNat ≤ 0x7FF) ∨
      ∃ first second rest, text = first :: second :: rest ∧ first.toNat ≤ 0x7F ∧
        second.toNat ≤ 0x7F := by
  rcases text with _ | ⟨first, _ | ⟨second, rest⟩⟩
  · exact .inl rfl
  · by_cases hascii : first.toNat ≤ 0x7F
    · exact .inr (.inl ⟨first, rfl, hascii⟩)
    · by_cases hwide : 0x7FF < first.toNat
      · exact .inr (.inr (.inl hwide))
      · exact .inr (.inr (.inr (.inl ⟨first, [], rfl, by omega, by omega⟩)))
  · by_cases hwide : 0x7FF < first.toNat
    · exact .inr (.inr (.inl (.inl hwide)))
    · by_cases hascii : first.toNat ≤ 0x7F
      · by_cases hsecond : second.toNat ≤ 0x7F
        · exact .inr (.inr (.inr (.inr ⟨first, second, rest, rfl, hascii, hsecond⟩)))
        · exact .inr (.inr (.inl (.inr ⟨hascii, by omega⟩)))
      · exact .inr (.inr (.inr (.inl ⟨first, second :: rest, rfl, by omega, by omega⟩)))

theorem fromHexSlices_splits {text : List Char} (hsplits : SplitsCharacter text) :
    fromHexSlices (encodeUtf8 text) = .panicked := by
  have hwide : ∀ (char : Char) (rest : List Char), 0x7FF < char.toNat →
      fromHexSlices (encodeUtf8 (char :: rest)) = .panicked := by
    intro char rest hchar
    obtain ⟨first, second, after, hencode, -, -, -, hboundary⟩ :=
      encode_wide (show 0x7F < char.toNat by omega) (encodeUtf8 rest)
    rw [encodeUtf8_cons, hencode, fromHexSlices, hboundary hchar]
    rfl
  rcases text with _ | ⟨first, _ | ⟨second, rest⟩⟩
  · exact absurd hsplits id
  · exact hwide first [] hsplits
  · rcases hsplits with hfirst | ⟨hfirst, hsecond⟩
    · exact hwide first (second :: rest) hfirst
    · obtain ⟨lead, next, after, hencode, -, hboundary, -, -⟩ :=
        encode_wide hsecond (encodeUtf8 rest)
      rw [encodeUtf8_cons, encode_ascii hfirst, encodeUtf8_cons, hencode, List.singleton_append,
        fromHexSlices, hboundary]
      rfl

theorem fromHexSlices_two {char : Char} {rest : List Char} (hlow : 0x7F < char.toNat)
    (hhigh : char.toNat ≤ 0x7FF) :
    fromHexSlices (encodeUtf8 (char :: rest)) = .returned none := by
  obtain ⟨first, second, after, hencode, hlead, -, hafter, -⟩ :=
    encode_wide hlow (encodeUtf8 rest)
  have hrefused : fromStrRadix first second = none := by
    have hdigit : digitValue first = none := by
      rw [UInt8.le_iff_toNat_le] at hlead
      unfold digitValue
      rw [if_neg, if_neg, if_neg]
      · rintro ⟨-, h⟩
        exact absurd (hlead.trans h) (by decide)
      · rintro ⟨-, h⟩
        exact absurd (hlead.trans h) (by decide)
      · rintro ⟨-, h⟩
        exact absurd (hlead.trans h) (by decide)
    have hsign : first ≠ 43 := by
      rintro rfl
      exact absurd hlead (by decide)
    rw [fromStrRadix, if_neg hsign, hdigit]
    rfl
  rw [encodeUtf8_cons, hencode, hafter hhigh, fromHexSlices, boundaryBefore_encodeUtf8, hrefused]
  rfl

theorem encodeUtf8_ascii_pair {first second : Char} (hfirst : first.toNat ≤ 0x7F)
    (hsecond : second.toNat ≤ 0x7F) (rest : List Char) :
    encodeUtf8 (first :: second :: rest) =
      UInt8.ofNat first.toNat :: UInt8.ofNat second.toNat :: encodeUtf8 rest := by
  rw [encodeUtf8_cons, encodeUtf8_cons, encode_ascii hfirst, encode_ascii hsecond]
  rfl

theorem fromHexSlices_pair {first second : Char} {rest : List Char} (hfirst : first.toNat ≤ 0x7F)
    (hsecond : second.toNat ≤ 0x7F) :
    fromHexSlices (encodeUtf8 (first :: second :: rest)) =
      (pairOctet first second).elim (.returned none) (fromHexSlices (encodeUtf8 rest)).cons := by
  rw [encodeUtf8_ascii_pair hfirst hsecond, fromHexSlices, boundaryBefore_encodeUtf8, ← pairOctet]
  cases pairOctet first second <;> rfl

/-! ### The whole text -/

theorem TakenPair.ascii {first second : Char} (htaken : TakenPair (first, second)) :
    first.toNat ≤ 0x7F ∧ second.toNat ≤ 0x7F := by
  obtain ⟨hfirst | rfl, hsecond⟩ := htaken
  · exact ⟨toNat_le_of_isHexDigit hfirst, toNat_le_of_isHexDigit hsecond⟩
  · exact ⟨by decide, toNat_le_of_isHexDigit hsecond⟩

theorem TakenPair.octet {first second : Char} (htaken : TakenPair (first, second)) :
    ∃ octet, pairOctet first second = some octet :=
  Option.isSome_iff_exists.mp ((isSome_pairOctet_iff htaken.ascii.1 htaken.ascii.2).mpr htaken)

theorem cons_eq_panicked {octet : UInt8} {outcome : HexOutcome} :
    outcome.cons octet = .panicked ↔ outcome = .panicked := by
  cases outcome with
  | panicked => simp [HexOutcome.cons]
  | returned octets => simp [HexOutcome.cons]

theorem cons_eq_some {octet : UInt8} {outcome : HexOutcome} {octets : Bytes} :
    outcome.cons octet = .returned (some octets) ↔
      ∃ rest, outcome = .returned (some rest) ∧ octet :: rest = octets := by
  cases outcome with
  | panicked => simp [HexOutcome.cons]
  | returned found => cases found <;> simp [HexOutcome.cons]

section Taken

variable {pairs : List (Char × Char)} (htaken : ∀ pair ∈ pairs, TakenPair pair)

include htaken

/-- After the pairs that are taken, the rest of the text decides. -/
theorem fromHexSlices_unpair (rest : List Char) :
    ∃ octets : Bytes, octets.map some = pairs.map (fun pair ↦ pairOctet pair.1 pair.2) ∧
      fromHexSlices (encodeUtf8 (unpair pairs ++ rest)) =
        octets.foldr HexOutcome.cons (fromHexSlices (encodeUtf8 rest)) := by
  induction pairs with
  | nil => exact ⟨[], rfl, rfl⟩
  | cons pair pairs ih =>
    obtain ⟨first, second⟩ := pair
    have hpair := htaken (first, second) List.mem_cons_self
    obtain ⟨octet, hoctet⟩ := hpair.octet
    obtain ⟨octets, hoctets, hrest⟩ := ih fun pair hmem ↦ htaken pair (List.mem_cons_of_mem _ hmem)
    refine ⟨octet :: octets, ?_, ?_⟩
    · rw [List.map_cons, List.map_cons, hoctets, hoctet]
    · rw [unpair_cons, List.cons_append, List.cons_append,
        fromHexSlices_pair hpair.ascii.1 hpair.ascii.2, hoctet, Option.elim_some, hrest,
        List.foldr_cons]

theorem length_encodeUtf8_unpair (rest : List Char) :
    (encodeUtf8 (unpair pairs ++ rest)).length = 2 * pairs.length + (encodeUtf8 rest).length := by
  induction pairs with
  | nil => simp [unpair]
  | cons pair pairs ih =>
    obtain ⟨first, second⟩ := pair
    have hpair := (htaken (first, second) List.mem_cons_self).ascii
    have hrest := ih fun pair hmem ↦ htaken pair (List.mem_cons_of_mem _ hmem)
    rw [unpair_cons, List.cons_append, List.cons_append, encodeUtf8_ascii_pair hpair.1 hpair.2,
      List.length_cons, List.length_cons, List.length_cons]
    omega

theorem exists_octets :
    ∃ octets : Bytes, octets.map some = pairs.map fun pair ↦ pairOctet pair.1 pair.2 := by
  obtain ⟨octets, hoctets, -⟩ := fromHexSlices_unpair htaken []
  exact ⟨octets, hoctets⟩

end Taken

/-- A text is some pairs that are taken and a rest that begins with no such pair. -/
theorem exists_taken_pairs (text : List Char) :
    ∃ pairs rest, text = unpair pairs ++ rest ∧ (∀ pair ∈ pairs, TakenPair pair) ∧
      (rest = [] ∨ (∃ char, rest = [char] ∧ char.toNat ≤ 0x7F) ∨ SplitsCharacter rest ∨
        fromHexSlices (encodeUtf8 rest) = .returned none) := by
  induction hlength : text.length using Nat.strong_induction_on generalizing text with
  | _ length ih =>
    rcases text_cases text with h | h | h | ⟨char, rest, rfl, hlow, hhigh⟩ |
      ⟨first, second, rest, rfl, hfirst, hsecond⟩
    · exact ⟨[], text, rfl, by simp, .inl h⟩
    · exact ⟨[], text, rfl, by simp, .inr (.inl h)⟩
    · exact ⟨[], text, rfl, by simp, .inr (.inr (.inl h))⟩
    · exact ⟨[], char :: rest, rfl, by simp, .inr (.inr (.inr (fromHexSlices_two hlow hhigh)))⟩
    · cases hpair : pairOctet first second with
      | none =>
        exact ⟨[], first :: second :: rest, rfl, by simp,
          .inr (.inr (.inr (by rw [fromHexSlices_pair hfirst hsecond, hpair]; rfl)))⟩
      | some octet =>
        have htaken : TakenPair (first, second) := by
          rw [← isSome_pairOctet_iff hfirst hsecond, hpair]
          rfl
        have hlt : rest.length < length := by
          rw [← hlength, List.length_cons, List.length_cons]
          omega
        obtain ⟨pairs, final, hrest, hpairs, hfinal⟩ := ih rest.length hlt rest rfl
        refine ⟨(first, second) :: pairs, final, by rw [hrest]; rfl, ?_, hfinal⟩
        intro pair hmem
        rcases List.mem_cons.mp hmem with rfl | hmem
        · exact htaken
        · exact hpairs pair hmem

theorem foldr_cons_eq_panicked {octets : Bytes} {outcome : HexOutcome} :
    octets.foldr HexOutcome.cons outcome = .panicked ↔ outcome = .panicked := by
  induction octets with
  | nil => rfl
  | cons octet octets ih => rw [List.foldr_cons, cons_eq_panicked, ih]

theorem foldr_cons_eq_some {octets found : Bytes} {outcome : HexOutcome} :
    octets.foldr HexOutcome.cons outcome = .returned (some found) ↔
      ∃ rest, outcome = .returned (some rest) ∧ octets ++ rest = found := by
  induction octets generalizing found with
  | nil => simp
  | cons octet octets ih =>
    rw [List.foldr_cons, cons_eq_some]
    constructor
    · rintro ⟨tail, htail, rfl⟩
      obtain ⟨rest, hrest, rfl⟩ := ih.mp htail
      exact ⟨rest, hrest, rfl⟩
    · rintro ⟨rest, hrest, rfl⟩
      exact ⟨octets ++ rest, ih.mpr ⟨rest, hrest, rfl⟩, rfl⟩

/-- It panics where a slice that it comes to ends inside a character. -/
theorem fromHexText_panicked_iff {text : List Char} :
    fromHexText text = .panicked ↔ (encodeUtf8 text).length % 2 = 0 ∧
      ∃ pairs rest, text = unpair pairs ++ rest ∧ (∀ pair ∈ pairs, TakenPair pair) ∧
        SplitsCharacter rest := by
  unfold fromHexText fromHex
  constructor
  · intro hpanicked
    split_ifs at hpanicked with hodd
    refine ⟨by omega, ?_⟩
    obtain ⟨pairs, rest, rfl, htaken, hrest⟩ := exists_taken_pairs text
    obtain ⟨octets, -, houtcome⟩ := fromHexSlices_unpair htaken rest
    rw [houtcome, foldr_cons_eq_panicked] at hpanicked
    rcases hrest with rfl | ⟨char, rfl, hascii⟩ | hsplits | hrefused
    · cases hpanicked
    · rw [encodeUtf8_cons, encode_ascii hascii] at hpanicked
      cases hpanicked
    · exact ⟨pairs, rest, rfl, htaken, hsplits⟩
    · rw [hrefused] at hpanicked
      cases hpanicked
  · rintro ⟨heven, pairs, rest, rfl, htaken, hsplits⟩
    obtain ⟨octets, -, houtcome⟩ := fromHexSlices_unpair htaken rest
    rw [if_neg (by omega), houtcome, fromHexSlices_splits hsplits, foldr_cons_eq_panicked]

/-- It returns the octets of the pairs of a text that consists of pairs that are taken. -/
theorem fromHexText_some_iff {text : List Char} {octets : Bytes} :
    fromHexText text = .returned (some octets) ↔
      ∃ pairs, text = unpair pairs ∧ (∀ pair ∈ pairs, TakenPair pair) ∧
        octets.map some = pairs.map fun pair ↦ pairOctet pair.1 pair.2 := by
  unfold fromHexText fromHex
  constructor
  · intro hreturned
    split_ifs at hreturned with hodd
    · cases hreturned
    obtain ⟨pairs, rest, rfl, htaken, hrest⟩ := exists_taken_pairs text
    obtain ⟨found, hfound, houtcome⟩ := fromHexSlices_unpair htaken rest
    rw [houtcome, foldr_cons_eq_some] at hreturned
    obtain ⟨later, hlater, rfl⟩ := hreturned
    rcases hrest with rfl | ⟨char, rfl, hascii⟩ | hsplits | hrefused
    · cases hlater
      refine ⟨pairs, List.append_nil _, htaken, ?_⟩
      rw [List.append_nil, hfound]
    · rw [length_encodeUtf8_unpair htaken, encodeUtf8_cons, encode_ascii hascii] at hodd
      exact absurd (show (2 * pairs.length + 1) % 2 ≠ 0 by omega) hodd
    · rw [fromHexSlices_splits hsplits] at hlater
      cases hlater
    · rw [hrefused] at hlater
      cases hlater
  · rintro ⟨pairs, rfl, htaken, hoctets⟩
    obtain ⟨found, hfound, houtcome⟩ := fromHexSlices_unpair htaken []
    have hsame : found = octets :=
      List.map_injective_iff.mpr (Option.some_injective _) (hfound.trans hoctets.symm)
    have hlength := length_encodeUtf8_unpair htaken []
    rw [List.append_nil] at houtcome hlength
    rw [if_neg (by rw [hlength]; simp [encodeUtf8]), houtcome, foldr_cons_eq_some]
    exact ⟨[], rfl, by rw [hsame, List.append_nil]⟩

/-! ### Exact decoding -/

theorem exists_unpair {text : List Char} (heven : text.length % 2 = 0) :
    ∃ pairs, text = unpair pairs := by
  induction hlength : text.length using Nat.strong_induction_on generalizing text with
  | _ length ih =>
    rcases text with _ | ⟨first, _ | ⟨second, rest⟩⟩
    · exact ⟨[], rfl⟩
    · exact absurd heven Nat.one_ne_zero
    · rw [List.length_cons, List.length_cons] at heven hlength
      obtain ⟨pairs, rfl⟩ := ih rest.length (by omega) (by omega) rfl
      exact ⟨(first, second) :: pairs, rfl⟩

theorem isHexText_unpair_iff (pairs : List (Char × Char)) :
    IsHexText (unpair pairs) ↔
      ∀ pair ∈ pairs, isHexDigit pair.1 = true ∧ isHexDigit pair.2 = true := by
  unfold IsHexText
  rw [length_unpair, Nat.mul_mod_right]
  simp only [unpair, List.mem_flatMap, List.mem_cons, List.not_mem_nil, or_false, true_and]
  constructor
  · intro hdigits pair hmem
    exact ⟨hdigits _ ⟨pair, hmem, .inl rfl⟩, hdigits _ ⟨pair, hmem, .inr rfl⟩⟩
  · rintro hpairs char ⟨pair, hmem, rfl | rfl⟩
    · exact (hpairs pair hmem).1
    · exact (hpairs pair hmem).2

/-- The value of a digit, and the digit that is written for it. -/
theorem digitValue_of_isHexDigit {char : Char} (hdigit : isHexDigit char = true) :
    ∃ value < 16, digitValue (UInt8.ofNat char.toNat) = some value ∧
      Char.ofNat (hexDigit value).toNat = char.toLower := by
  have hall : ∀ n < 128, isHexDigit (Char.ofNat n) = true →
      ∃ value < 16, digitValue (UInt8.ofNat (Char.ofNat n).toNat) = some value ∧
        Char.ofNat (hexDigit value).toNat = (Char.ofNat n).toLower := by
    decide +kernel
  have hsame : Char.ofNat char.toNat = char := Char.ofNat_toNat char
  have hchar := hall char.toNat (Nat.lt_succ_of_le (toNat_le_of_isHexDigit hdigit))
  rw [hsame] at hchar
  exact hchar hdigit

/-- Two digits give the octet that is written with them. -/
theorem pairOctet_digits {first second : Char} (hfirst : isHexDigit first = true)
    (hsecond : isHexDigit second = true) :
    ∃ octet : UInt8, pairOctet first second = some octet ∧
      Char.ofNat (hexDigit (octet.toNat / 16)).toNat = first.toLower ∧
      Char.ofNat (hexDigit (octet.toNat % 16)).toNat = second.toLower := by
  obtain ⟨high, hhigh, hhighvalue, hhighdigit⟩ := digitValue_of_isHexDigit hfirst
  obtain ⟨low, hlow, hlowvalue, hlowdigit⟩ := digitValue_of_isHexDigit hsecond
  have hsign : UInt8.ofNat first.toNat ≠ 43 := by
    intro hplus
    rw [eq_plus_iff (toNat_le_of_isHexDigit hfirst)] at hplus
    rw [hplus] at hfirst
    exact absurd hfirst (by decide)
  have hoctet : (UInt8.ofNat (high * 16 + low)).toNat = high * 16 + low := by
    rw [UInt8.toNat_ofNat']
    omega
  have hdiv : (high * 16 + low) / 16 = high := by omega
  have hmod : (high * 16 + low) % 16 = low := by omega
  refine ⟨UInt8.ofNat (high * 16 + low), ?_, ?_, ?_⟩
  · rw [pairOctet, fromStrRadix, if_neg hsign, hhighvalue, hlowvalue]
    rfl
  · rw [hoctet, hdiv, hhighdigit]
  · rw [hoctet, hmod, hlowdigit]

theorem toHexText_cons (octet : UInt8) (octets : Bytes) :
    toHexText (octet :: octets) =
      Char.ofNat (hexDigit (octet.toNat / 16)).toNat ::
        Char.ofNat (hexDigit (octet.toNat % 16)).toNat :: toHexText octets := rfl

theorem toHexText_of_digits {pairs : List (Char × Char)}
    (hdigits : ∀ pair ∈ pairs, isHexDigit pair.1 = true ∧ isHexDigit pair.2 = true)
    {octets : Bytes}
    (hoctets : octets.map some = pairs.map fun pair ↦ pairOctet pair.1 pair.2) :
    toHexText octets = (unpair pairs).map Char.toLower := by
  induction pairs generalizing octets with
  | nil =>
    rw [List.map_eq_nil_iff.mp hoctets]
    rfl
  | cons pair pairs ih =>
    obtain ⟨first, second⟩ := pair
    obtain ⟨octet, rest, rfl, hoctet, hrest⟩ := List.map_eq_cons_iff.mp hoctets
    obtain ⟨hfirst, hsecond⟩ := hdigits (first, second) List.mem_cons_self
    obtain ⟨found, hfound, hhigh, hlow⟩ := pairOctet_digits hfirst hsecond
    have hsame : octet = found := Option.some.inj (hoctet.trans hfound)
    rw [toHexText_cons, hsame, hhigh, hlow,
      ih (fun pair hmem ↦ hdigits pair (List.mem_cons_of_mem _ hmem)) hrest]
    rfl

/-- The decoder on one text: it does not panic, it returns octets exactly for an even number of
hexadecimal digits, and these octets are the ones that are written with them. -/
structure ReadsExactly (text : List Char) : Prop where
  returns : fromHexText text ≠ .panicked
  some_iff : (∃ octets, fromHexText text = .returned (some octets)) ↔ IsHexText text
  inverse : ∀ octets, fromHexText text = .returned (some octets) →
    toHexText octets = text.map Char.toLower

/-- A text of an even number of octets that, after pairs that are taken, comes to a slice that ends
inside a character, or that ends with a plus sign among its pairs. -/
def Misread (text : List Char) : Prop :=
  (encodeUtf8 text).length % 2 = 0 ∧
    ∃ pairs rest, text = unpair pairs ++ rest ∧ (∀ pair ∈ pairs, TakenPair pair) ∧
      (SplitsCharacter rest ∨ rest = [] ∧ ∃ pair ∈ pairs, pair.1 = '+')

theorem misread_of_panicked {text : List Char} (hpanicked : fromHexText text = .panicked) :
    Misread text := by
  obtain ⟨heven, pairs, rest, htext, htaken, hsplits⟩ := fromHexText_panicked_iff.mp hpanicked
  exact ⟨heven, pairs, rest, htext, htaken, .inl hsplits⟩

/-- A text that is not misread is taken only in pairs of digits. -/
theorem digits_of_not_misread {pairs : List (Char × Char)} (hmisread : ¬ Misread (unpair pairs))
    (htaken : ∀ pair ∈ pairs, TakenPair pair) :
    ∀ pair ∈ pairs, isHexDigit pair.1 = true ∧ isHexDigit pair.2 = true := by
  intro pair hmem
  obtain ⟨hfirst | hplus, hsecond⟩ := htaken pair hmem
  · exact ⟨hfirst, hsecond⟩
  · have hlength := length_encodeUtf8_unpair htaken []
    rw [List.append_nil] at hlength
    refine absurd ⟨?_, pairs, [], (List.append_nil _).symm, htaken, .inr ⟨rfl, pair, hmem, hplus⟩⟩
      hmisread
    rw [hlength]
    simp [encodeUtf8]

theorem taken_of_digits {pairs : List (Char × Char)}
    (hdigits : ∀ pair ∈ pairs, isHexDigit pair.1 = true ∧ isHexDigit pair.2 = true) :
    ∀ pair ∈ pairs, TakenPair pair :=
  fun pair hmem ↦ ⟨.inl (hdigits pair hmem).1, (hdigits pair hmem).2⟩

theorem not_misread_of_readsExactly {text : List Char} (hreads : ReadsExactly text) :
    ¬ Misread text := by
  rintro ⟨heven, pairs, rest, rfl, htaken, hsplits | ⟨rfl, pair, hmem, hplus⟩⟩
  · exact hreads.returns (fromHexText_panicked_iff.mpr ⟨heven, pairs, rest, rfl, htaken, hsplits⟩)
  · obtain ⟨octets, hoctets⟩ := exists_octets htaken
    have hsome := fromHexText_some_iff.mpr ⟨pairs, List.append_nil _, htaken, hoctets⟩
    have hhex := hreads.some_iff.mp ⟨octets, hsome⟩
    rw [List.append_nil, isHexText_unpair_iff] at hhex
    have hdigit := (hhex pair hmem).1
    rw [hplus] at hdigit
    exact absurd hdigit (by decide)

theorem readsExactly_of_not_misread {text : List Char} (hmisread : ¬ Misread text) :
    ReadsExactly text := by
  refine ⟨fun hpanicked ↦ hmisread (misread_of_panicked hpanicked), ⟨?_, ?_⟩, ?_⟩
  · rintro ⟨octets, hreturned⟩
    obtain ⟨pairs, rfl, htaken, -⟩ := fromHexText_some_iff.mp hreturned
    rw [isHexText_unpair_iff]
    exact digits_of_not_misread hmisread htaken
  · intro hhex
    obtain ⟨pairs, rfl⟩ := exists_unpair hhex.1
    have htaken := taken_of_digits ((isHexText_unpair_iff pairs).mp hhex)
    obtain ⟨octets, hoctets⟩ := exists_octets htaken
    exact ⟨octets, fromHexText_some_iff.mpr ⟨pairs, rfl, htaken, hoctets⟩⟩
  · intro octets hreturned
    obtain ⟨pairs, rfl, htaken, hoctets⟩ := fromHexText_some_iff.mp hreturned
    exact toHexText_of_digits (digits_of_not_misread hmisread htaken) hoctets

theorem encodeUtf8_toHexText (octets : Bytes) : encodeUtf8 (toHexText octets) = toHex octets := by
  have hnibble : ∀ value < 16,
      String.utf8EncodeChar (Char.ofNat (hexDigit value).toNat) = [hexDigit value] := by
    decide +kernel
  induction octets with
  | nil => rfl
  | cons octet octets ih =>
    have hlt := octet.toNat_lt
    rw [toHexText_cons, encodeUtf8_cons, encodeUtf8_cons, hnibble _ (by omega),
      hnibble _ (by omega), ih]
    rfl

/-- When hex decoding is exact. What the encoder writes is read back. On any text it holds that the
decoder does not panic, returns octets of texts of hex digits only and of all of them, and returns
those that write back as the text in lower case, if and only if the text is not one of those it
misreads. -/
theorem hex_decoding_exact_iff (octets : Bytes) (text : List Char) :
    fromHexText (toHexText octets) = .returned (some octets) ∧
      (ReadsExactly text ↔ ¬ Misread text) :=
  ⟨by rw [fromHexText, encodeUtf8_toHexText, fromHex_toHex], not_misread_of_readsExactly,
    readsExactly_of_not_misread⟩

/-- A plus sign is taken for a digit, and a character in the way of a slice panics. -/
theorem plus_sign_taken_and_split_panics :
    fromHexText ['+', 'f'] = .returned (some [15]) ∧ ¬ IsHexText ['+', 'f'] ∧
      fromHexText ['a', 'é', '1'] = .panicked := by
  refine ⟨by decide +kernel, ?_, by decide +kernel⟩
  rintro ⟨-, hdigits⟩
  exact absurd (hdigits '+' List.mem_cons_self) (by decide)

end SiphonRtp.Engine
