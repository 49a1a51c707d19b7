import Mathlib.Data.List.Basic
import Mathlib.Data.Nat.Digits.Defs

/-!
# Text

Texts are lists of characters, and the functions on them are those of the standard library of Rust
that parsers of line protocols use: splitting at white space or at a character, taking a known
beginning off, and reading unsigned numbers. Each comes with what it does to a text that was put
together from its parts.
-/

set_option autoImplicit false

namespace SiphonRtp.Machine

/-- A text. -/
abbrev Text := List Char

/-- `char::is_whitespace`, the Unicode property `White_Space`. -/
def isWhitespace (char : Char) : Bool :=
  let point := char.toNat
  (0x09 ≤ point && point ≤ 0x0D) || point == 0x20 || point == 0x85 || point == 0xA0 ||
    point == 0x1680 || (0x2000 ≤ point && point ≤ 0x200A) || point == 0x2028 || point == 0x2029 ||
    point == 0x202F || point == 0x205F || point == 0x3000

/-- `str::split_whitespace`. -/
def splitWhitespace (text : Text) : List Text :=
  (text.splitOnP isWhitespace).filter fun word ↦ !word.isEmpty

/-- `str::strip_prefix`. -/
def stripLead (lead text : Text) : Option Text :=
  if text.take lead.length = lead then some (text.drop lead.length) else none

/-- `str::split_once`. -/
def splitOnce (separator : Char) (text : Text) : Option (Text × Text) :=
  if separator ∈ text then
    some (text.takeWhile (· != separator), (text.dropWhile (· != separator)).drop 1)
  else none

/-- `str::split_once` at a text: what stands before and after its first occurrence. -/
def splitOnceAt (pattern : Text) : Text → Option (Text × Text)
  | [] => (stripLead pattern []).map fun rest ↦ ([], rest)
  | char :: text =>
    match stripLead pattern (char :: text) with
    | some rest => some ([], rest)
    | none => (splitOnceAt pattern text).map fun (before, rest) ↦ (char :: before, rest)

/-- The text of a number. -/
def numeral (n : ℕ) : Text := Nat.toDigits 10 n

/-- `parse` of an unsigned integer type of so many values: an optional plus sign and digits. -/
def parseUnsigned (values : ℕ) (text : Text) : Option ℕ :=
  let digits := if text.head? = some '+' then text.tail else text
  if digits.isEmpty || !digits.all Char.isDigit then none
  else
    let value := Nat.ofDigitChars 10 digits 0
    if value < values then some value else none

@[simp] theorem stripLead_append (lead text : Text) :
    stripLead lead (lead ++ text) = some text := by
  simp [stripLead]

theorem splitWhitespace_word {word : Text} (hne : word ≠ [])
    (hword : ∀ char ∈ word, isWhitespace char = false) : splitWhitespace word = [word] := by
  simp [splitWhitespace, List.splitOnP_eq_singleton hword, hne]

/-- The first word of a text. -/
theorem splitWhitespace_cons {word : Text} (hne : word ≠ [])
    (hword : ∀ char ∈ word, isWhitespace char = false) {separator : Char}
    (hseparator : isWhitespace separator = true) (rest : Text) :
    splitWhitespace (word ++ separator :: rest) = word :: splitWhitespace rest := by
  simp [splitWhitespace, List.splitOnP_append_cons word rest hseparator,
    List.splitOnP_eq_singleton hword, hne]

theorem splitOn_part {separator : Char} {part : Text} (hpart : separator ∉ part) :
    part.splitOn separator = [part] := by
  refine List.splitOnP_eq_singleton fun char hmem ↦ ?_
  rw [beq_eq_false_iff_ne]
  rintro rfl
  exact hpart hmem

/-- The first part of a text. -/
theorem splitOn_cons {separator : Char} {part : Text} (hpart : separator ∉ part) (rest : Text) :
    (part ++ separator :: rest).splitOn separator = part :: rest.splitOn separator := by
  have hself : (fun char ↦ char == separator) separator = true := BEq.rfl
  have hsplit : (part ++ separator :: rest).splitOn separator =
      part.splitOn separator ++ rest.splitOn separator :=
    @List.splitOnP_append_cons _ (fun char ↦ char == separator) part rest separator hself
  rw [hsplit, splitOn_part hpart]
  rfl

theorem splitOnce_append {separator : Char} {part : Text} (hpart : separator ∉ part) (rest : Text) :
    splitOnce separator (part ++ separator :: rest) = some (part, rest) := by
  have hall : ∀ char ∈ part, (char != separator) = true := by
    intro char hmem
    rw [bne_iff_ne]
    rintro rfl
    exact hpart hmem
  have htake : (part ++ separator :: rest).takeWhile (· != separator) = part := by
    rw [List.takeWhile_append_of_pos hall]
    simp
  have hdrop : (part ++ separator :: rest).dropWhile (· != separator) = separator :: rest := by
    rw [List.dropWhile_append_of_pos hall]
    simp
  rw [splitOnce, if_pos (by simp), htake, hdrop]
  rfl

theorem stripLead_of_ne {first head : Char} (hne : head ≠ first) (pattern text : Text) :
    stripLead (first :: pattern) (head :: text) = none := by
  simp [stripLead, hne]

/-- A text in which the pattern cannot begin has no occurrence of it. -/
theorem splitOnceAt_of_not_mem {first : Char} {text : Text} (htext : first ∉ text)
    (pattern : Text) : splitOnceAt (first :: pattern) text = none := by
  induction text with
  | nil => rfl
  | cons head text ih =>
    rw [List.mem_cons, not_or] at htext
    rw [splitOnceAt, stripLead_of_ne (Ne.symm htext.1), ih htext.2]
    rfl

theorem splitOnceAt_append {first : Char} {before : Text} (hbefore : first ∉ before)
    (pattern rest : Text) :
    splitOnceAt (first :: pattern) (before ++ (first :: pattern ++ rest)) =
      some (before, rest) := by
  induction before with
  | nil =>
    rw [List.nil_append, List.cons_append, splitOnceAt, ← List.cons_append, stripLead_append]
  | cons head before ih =>
    rw [List.mem_cons, not_or] at hbefore
    rw [List.cons_append, splitOnceAt, stripLead_of_ne (Ne.symm hbefore.1), ih hbefore.2]
    rfl

theorem isDigit_of_mem_numeral {n : ℕ} {char : Char} (hmem : char ∈ numeral n) :
    char.isDigit = true := Nat.isDigit_of_mem_toDigits (by decide) (by decide) hmem

/-- A character of a numeral is none of the characters that are no digits. -/
theorem not_mem_numeral {char : Char} (hchar : char.isDigit = false) (n : ℕ) :
    char ∉ numeral n := by
  intro hmem
  rw [isDigit_of_mem_numeral hmem] at hchar
  cases hchar

theorem numeral_ne_nil (n : ℕ) : numeral n ≠ [] := Nat.toDigits_ne_nil

theorem isWhitespace_of_isDigit {char : Char} (hdigit : char.isDigit = true) :
    isWhitespace char = false := by
  have hrange : 48 ≤ char.toNat ∧ char.toNat ≤ 57 := by
    simpa [Char.isDigit, UInt32.le_iff_toNat_le] using hdigit
  simp only [isWhitespace, Bool.or_eq_false_iff, Bool.and_eq_false_iff, decide_eq_false_iff_not,
    beq_eq_false_iff_ne]
  omega

theorem toNat_lt_of_isAlphanum {char : Char} (hchar : char.isAlphanum = true) :
    char.toNat < 128 := by
  have hranges : ((decide (char.val ≥ 'A'.val ∧ char.val ≤ 'Z'.val) ||
      decide (char.val ≥ 'a'.val) && decide (char.val ≤ 'z'.val)) ||
      decide (char.val ≥ '0'.val) && decide (char.val ≤ '9'.val)) = true := hchar
  simp only [Bool.or_eq_true, Bool.and_eq_true, decide_eq_true_eq] at hranges
  rcases hranges with (⟨-, h⟩ | ⟨-, h⟩) | ⟨-, h⟩
  · exact Nat.lt_of_le_of_lt h (by decide)
  · exact Nat.lt_of_le_of_lt h (by decide)
  · exact Nat.lt_of_le_of_lt h (by decide)

/-- What holds of every ASCII character. -/
theorem of_ascii {holds : Char → Prop} (hall : ∀ n < 128, holds (Char.ofNat n)) {char : Char}
    (hascii : char.toNat < 128) : holds char := by
  have hchar := hall char.toNat hascii
  rwa [Char.ofNat_toNat] at hchar

theorem parseUnsigned_numeral {values n : ℕ} (hvalue : n < values) :
    parseUnsigned values (numeral n) = some n := by
  have hsign : (numeral n).head? ≠ some '+' := by
    intro hhead
    exact absurd (List.mem_of_mem_head? hhead) (not_mem_numeral (by decide) n)
  have hdigits : (numeral n).all Char.isDigit = true :=
    List.all_eq_true.mpr fun _ hmem ↦ isDigit_of_mem_numeral hmem
  have hread : Nat.ofDigitChars 10 (numeral n) 0 = n :=
    Nat.ofDigitChars_toDigits (by decide) (by decide)
  unfold parseUnsigned
  rw [if_neg hsign]
  dsimp only
  rw [hdigits, hread, if_pos hvalue]
  simp [numeral_ne_nil]

end SiphonRtp.Machine
