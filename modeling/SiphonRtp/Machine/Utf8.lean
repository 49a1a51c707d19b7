import SiphonRtp.Machine.Octets

/-!
# UTF-8

Decoding octets as UTF-8 the way the standard library of Rust does: the characters up to the first
fault, the octets from there on, and the fault, which is an unfinished character at the end
(`incomplete`) or a number of octets that begin no character (`invalid`). One character is decoded
by Lean's own decoder. The encoding of a text decodes to the text without a fault
(`decodeUtf8_encodeUtf8`).

`decodeLossy` is the decoding that puts a replacement character for each fault and goes on behind
it. A fault stays one whatever follows (`utf8Fault_append`), and what begins a character is none
(`utf8Fault_of_isPrefix`), so the lossy decoding of octets can be taken up where a packet of them
ends. A text can be cut exactly where no character goes on (`isWhole_drop_iff`).
-/

set_option autoImplicit false

namespace SiphonRtp.Machine

/-- Why some octets are no text. -/
inductive Utf8Fault
  | incomplete
  | invalid (length : ℕ)
deriving DecidableEq

/-- The second octets that may follow a first one. -/
def secondOctets (first : UInt8) : UInt8 × UInt8 :=
  if first = 0xE0 then (0xA0, 0xBF)
  else if first = 0xED then (0x80, 0x9F)
  else if first = 0xF0 then (0x90, 0xBF)
  else if first = 0xF4 then (0x80, 0x8F)
  else (0x80, 0xBF)

/-- The fault of octets that begin with no character. -/
def utf8Fault : Bytes → Utf8Fault
  | [] => .incomplete
  | first :: rest =>
    if first < 0xC2 ∨ 0xF4 < first then .invalid 1
    else
      match rest with
      | [] => .incomplete
      | second :: rest =>
        if second < (secondOctets first).1 ∨ (secondOctets first).2 < second then .invalid 1
        else
          match rest with
          | [] => .incomplete
          | third :: rest =>
            if third < 0x80 ∨ 0xBF < third then .invalid 2
            else if rest = [] then .incomplete
            else .invalid 3

/-- The character that octets begin with. -/
def utf8Char (bytes : Bytes) : Option Char := bytes.toByteArray.utf8DecodeChar? 0

/-- The text up to the first fault, the octets from there on, and the fault. -/
def decodeUtf8 (bytes : Bytes) : List Char × Bytes × Option Utf8Fault :=
  if _hnil : bytes = [] then ([], [], none)
  else
    match utf8Char bytes with
    | some char =>
      let decoded := decodeUtf8 (bytes.drop char.utf8Size)
      (char :: decoded.1, decoded.2)
    | none => ([], bytes, some (utf8Fault bytes))
termination_by bytes.length
decreasing_by
  have hsize := Char.utf8Size_pos char
  have hlength := List.length_pos_iff.mpr _hnil
  rw [List.length_drop]
  omega

theorem utf8Char_encode (char : Char) (rest : Bytes) :
    utf8Char (String.utf8EncodeChar char ++ rest) = some char := by
  rw [utf8Char, List.toByteArray_append]
  exact ByteArray.utf8DecodeChar?_utf8EncodeChar_append

/-- The encoding of a text decodes to the text. -/
theorem decodeUtf8_encodeUtf8 (text : List Char) :
    decodeUtf8 (encodeUtf8 text) = (text, [], none) := by
  induction text with
  | nil =>
    rw [decodeUtf8]
    rfl
  | cons char text ih =>
    have hne : encodeUtf8 (char :: text) ≠ [] := by
      rw [encodeUtf8_cons]
      simp
    have hdrop : (encodeUtf8 (char :: text)).drop char.utf8Size = encodeUtf8 text := by
      rw [← String.length_utf8EncodeChar]
      exact List.drop_left
    have hchar : utf8Char (encodeUtf8 (char :: text)) = some char := by
      rw [encodeUtf8_cons, utf8Char_encode]
    rw [decodeUtf8, dif_neg hne, hchar]
    dsimp only
    rw [hdrop, ih]

/-- A fault is of some octets, and they are there. -/
theorem utf8Fault_bounds {bytes : Bytes} {length : ℕ}
    (hfault : utf8Fault bytes = .invalid length) : 0 < length ∧ length ≤ bytes.length := by
  unfold utf8Fault at hfault
  split at hfault
  · cases hfault
  split_ifs at hfault
  · cases hfault
    exact ⟨Nat.one_pos, Nat.le_add_left 1 _⟩
  split at hfault
  · cases hfault
  split_ifs at hfault
  · cases hfault
    exact ⟨Nat.one_pos, Nat.le_add_left 1 _⟩
  split at hfault
  · cases hfault
  split_ifs at hfault
  · cases hfault
    exact ⟨Nat.two_pos, Nat.le_add_left 2 _⟩
  · cases hfault
    exact ⟨Nat.succ_pos 2, Nat.le_add_left 3 _⟩

/-- A fault stands before what is left, and there is something left. -/
theorem decodeUtf8_fault {bytes rest : Bytes} {text : List Char} {fault : Utf8Fault}
    (hdecode : decodeUtf8 bytes = (text, rest, some fault)) :
    rest ≠ [] ∧ rest.length ≤ bytes.length ∧ utf8Fault rest = fault := by
  induction bytes using decodeUtf8.induct generalizing text with
  | case1 =>
    rw [decodeUtf8] at hdecode
    cases hdecode
  | case2 bytes hnil char hchar ih =>
    rw [decodeUtf8, dif_neg hnil, hchar] at hdecode
    obtain ⟨-, hrest⟩ := Prod.mk.inj hdecode
    obtain ⟨hne, hlength, hfault⟩ := ih (Prod.ext rfl hrest)
    rw [List.length_drop] at hlength
    exact ⟨hne, by omega, hfault⟩
  | case3 bytes hnil hchar =>
    rw [decodeUtf8, dif_neg hnil, hchar] at hdecode
    cases hdecode
    exact ⟨hnil, le_rfl, rfl⟩

/-! ### Lossy decoding -/

/-- `String::from_utf8_lossy`: a replacement character for each sequence of octets that begins no
character, and for an unfinished one at the end. -/
def decodeLossy (bytes : Bytes) : List Char :=
  if _hnil : bytes = [] then []
  else
    match utf8Char bytes with
    | some char => char :: decodeLossy (bytes.drop char.utf8Size)
    | none =>
      match _hfault : utf8Fault bytes with
      | .incomplete => ['\uFFFD']
      | .invalid length => '\uFFFD' :: decodeLossy (bytes.drop length)
termination_by bytes.length
decreasing_by
  · have hsize := Char.utf8Size_pos char
    have hlength := List.length_pos_iff.mpr _hnil
    rw [List.length_drop]
    omega
  · have hpos := (utf8Fault_bounds _hfault).1
    have hlength := List.length_pos_iff.mpr _hnil
    rw [List.length_drop]
    omega

/-- The beginning of a character, without its end. -/
structure Unfinished (bytes : Bytes) : Prop where
  char : utf8Char bytes = none
  fault : utf8Fault bytes = .incomplete

theorem exists_of_utf8Char {bytes : Bytes} {char : Char} (hchar : utf8Char bytes = some char) :
    ∃ rest, bytes = String.utf8EncodeChar char ++ rest := by
  obtain ⟨rest, hrest⟩ := ByteArray.exists_of_utf8DecodeChar?_eq_some hchar
  refine ⟨rest.data.toList, ?_⟩
  simpa using congrArg (fun array : ByteArray ↦ array.data.toList) hrest

/-- The second octet of a character is in the range that its first one leaves. -/
def FitsFirst (first second : UInt8) : Prop :=
  ¬ (second < (secondOctets first).1 ∨ (secondOctets first).2 < second)

theorem fitsFirst_iff {first second : UInt8} : FitsFirst first second ↔
    (if first.toNat = 0xE0 then 0xA0 else if first.toNat = 0xF0 then 0x90 else 0x80) ≤
        second.toNat ∧
      second.toNat ≤
        if first.toNat = 0xED then 0x9F else if first.toNat = 0xF4 then 0x8F else 0xBF := by
  have heq (value : UInt8) : first = value ↔ first.toNat = value.toNat := UInt8.toNat_inj.symm
  unfold FitsFirst secondOctets
  simp only [heq, UInt8.lt_iff_toNat_lt]
  split_ifs <;> simp_all

/-- The first octet of a character of several. -/
def LeadsSeveral (first : UInt8) : Prop := ¬ (first < 0xC2 ∨ 0xF4 < first)

theorem leadsSeveral_iff {first : UInt8} :
    LeadsSeveral first ↔ 0xC2 ≤ first.toNat ∧ first.toNat ≤ 0xF4 := by
  simp only [LeadsSeveral, UInt8.lt_iff_toNat_lt]
  simp

/-- The octets that are no fault as far as they go. -/
theorem utf8Fault_incomplete_iff {bytes : Bytes} : utf8Fault bytes = .incomplete ↔
    bytes = [] ∨ ∃ first, LeadsSeveral first ∧ (bytes = [first] ∨
      ∃ second, FitsFirst first second ∧ (bytes = [first, second] ∨
        ∃ third, ¬ (third < 0x80 ∨ 0xBF < third) ∧ bytes = [first, second, third])) := by
  constructor
  · intro hfault
    rcases bytes with _ | ⟨first, rest⟩
    · exact Or.inl rfl
    simp only [utf8Fault] at hfault
    split_ifs at hfault with hfirst
    refine Or.inr ⟨first, hfirst, ?_⟩
    rcases rest with _ | ⟨second, rest⟩
    · exact Or.inl rfl
    dsimp only at hfault
    split_ifs at hfault with hsecond
    refine Or.inr ⟨second, hsecond, ?_⟩
    rcases rest with _ | ⟨third, rest⟩
    · exact Or.inl rfl
    dsimp only at hfault
    split_ifs at hfault with hthird hend
    exact Or.inr ⟨third, hthird, hend ▸ rfl⟩
  · rintro (rfl | ⟨first, hfirst, rfl | ⟨second, hsecond, rfl | ⟨third, hthird, rfl⟩⟩⟩)
    · rfl
    · exact if_neg hfirst
    · exact (if_neg hfirst).trans (if_neg hsecond)
    · exact (if_neg hfirst).trans ((if_neg hsecond).trans ((if_neg hthird).trans (if_pos rfl)))

/-- What begins a character is no fault. -/
theorem utf8Fault_of_isPrefix {bytes rest : Bytes} {char : Char} (hne : bytes ≠ [])
    (hrest : rest ≠ []) (hchar : String.utf8EncodeChar char = bytes ++ rest) :
    utf8Fault bytes = .incomplete := by
  have hvalid := char.valid
  unfold UInt32.isValidChar Nat.isValidChar at hvalid
  refine utf8Fault_incomplete_iff.mpr (.inr ?_)
  unfold String.utf8EncodeChar at hchar
  dsimp only at hchar
  generalize char.val.toNat = value at hchar hvalid
  split_ifs at hchar with hascii htwoOctets hthreeOctets
  · rcases bytes with _ | ⟨first, bytes⟩
    · exact absurd rfl hne
    · simp_all
  · rcases bytes with _ | ⟨first, _ | ⟨second, bytes⟩⟩
    · exact absurd rfl hne
    · obtain rfl := (List.cons.inj hchar).1
      exact ⟨_, leadsSeveral_iff.mpr (by rw [UInt8.toNat_ofNat']; omega), .inl rfl⟩
    · simp_all
  · have hfirst : LeadsSeveral (UInt8.ofNat (value / 4096 % 16 + 224)) :=
      leadsSeveral_iff.mpr (by rw [UInt8.toNat_ofNat']; omega)
    have hsecond : FitsFirst (UInt8.ofNat (value / 4096 % 16 + 224))
        (UInt8.ofNat (value / 64 % 64 + 128)) := by
      rw [fitsFirst_iff, UInt8.toNat_ofNat', UInt8.toNat_ofNat']
      split_ifs <;> omega
    rcases bytes with _ | ⟨first, _ | ⟨second, _ | ⟨third, bytes⟩⟩⟩
    · exact absurd rfl hne
    · obtain rfl := (List.cons.inj hchar).1
      exact ⟨_, hfirst, .inl rfl⟩
    · obtain ⟨rfl, htail⟩ := List.cons.inj hchar
      obtain rfl := (List.cons.inj htail).1
      exact ⟨_, hfirst, .inr ⟨_, hsecond, .inl rfl⟩⟩
    · simp_all
  · have hfirst : LeadsSeveral (UInt8.ofNat (value / 262144 % 8 + 240)) :=
      leadsSeveral_iff.mpr (by rw [UInt8.toNat_ofNat']; omega)
    have hsecond : FitsFirst (UInt8.ofNat (value / 262144 % 8 + 240))
        (UInt8.ofNat (value / 4096 % 64 + 128)) := by
      rw [fitsFirst_iff, UInt8.toNat_ofNat', UInt8.toNat_ofNat']
      split_ifs <;> omega
    have hthird : ¬ (UInt8.ofNat (value / 64 % 64 + 128) < 0x80 ∨
        0xBF < UInt8.ofNat (value / 64 % 64 + 128)) := by
      simp only [UInt8.lt_iff_toNat_lt, UInt8.toNat_ofNat']
      simp
      omega
    rcases bytes with _ | ⟨first, _ | ⟨second, _ | ⟨third, _ | ⟨fourth, bytes⟩⟩⟩⟩
    · exact absurd rfl hne
    · obtain rfl := (List.cons.inj hchar).1
      exact ⟨_, hfirst, .inl rfl⟩
    · obtain ⟨rfl, htail⟩ := List.cons.inj hchar
      obtain rfl := (List.cons.inj htail).1
      exact ⟨_, hfirst, .inr ⟨_, hsecond, .inl rfl⟩⟩
    · obtain ⟨rfl, htail⟩ := List.cons.inj hchar
      obtain ⟨rfl, hlast⟩ := List.cons.inj htail
      obtain rfl := (List.cons.inj hlast).1
      exact ⟨_, hfirst, .inr ⟨_, hsecond, .inr ⟨_, hthird, rfl⟩⟩⟩
    · simp_all

/-- A fault stays one whatever follows. -/
theorem utf8Fault_append {bytes : Bytes} {length : ℕ} (hfault : utf8Fault bytes = .invalid length)
    (later : Bytes) : utf8Fault (bytes ++ later) = .invalid length := by
  rcases bytes with _ | ⟨first, _ | ⟨second, _ | ⟨third, bytes⟩⟩⟩
  · cases hfault
  · simp only [utf8Fault, List.cons_append] at hfault ⊢
    split_ifs at hfault ⊢ with hfirst
    exact hfault
  · simp only [utf8Fault, List.cons_append] at hfault ⊢
    split_ifs at hfault ⊢ with hfirst hsecond
    · exact hfault
    · exact hfault
  · simp only [utf8Fault, List.cons_append] at hfault ⊢
    split_ifs at hfault ⊢ with hfirst hsecond hthird hend hend'
    · exact hfault
    · exact hfault
    · exact hfault
    · exact absurd (List.append_eq_nil_iff.mp hend).1 hend'
    · exact hfault

theorem utf8Char_append_of_fault {bytes : Bytes} {length : ℕ} (hchar : utf8Char bytes = none)
    (hfault : utf8Fault bytes = .invalid length) (later : Bytes) :
    utf8Char (bytes ++ later) = none := by
  by_contra hsome
  obtain ⟨char, hsome⟩ := Option.ne_none_iff_exists'.mp hsome
  obtain ⟨rest, hrest⟩ := exists_of_utf8Char hsome
  have hne : bytes ≠ [] := by
    rintro rfl
    cases hfault
  rcases List.append_eq_append_iff.mp hrest with ⟨missing, hmissing, -⟩ | ⟨more, rfl, -⟩
  · by_cases hwhole : missing = []
    · rw [hwhole, List.append_nil] at hmissing
      have hagain := utf8Char_encode char []
      rw [List.append_nil, hmissing, hchar] at hagain
      cases hagain
    · rw [utf8Fault_of_isPrefix hne hwhole hmissing] at hfault
      cases hfault
  · rw [utf8Char_encode] at hchar
    cases hchar

theorem Unfinished.length_le {bytes : Bytes} (hbytes : Unfinished bytes) : bytes.length ≤ 3 := by
  rcases utf8Fault_incomplete_iff.mp hbytes.fault with
    rfl | ⟨first, -, rfl | ⟨second, -, rfl | ⟨third, -, rfl⟩⟩⟩ <;> simp

theorem unfinished_nil : Unfinished [] := ⟨rfl, rfl⟩

theorem decodeLossy_nil : decodeLossy [] = [] := by rw [decodeLossy, dif_pos rfl]

theorem decodeLossy_encode_append (char : Char) (rest : Bytes) :
    decodeLossy (String.utf8EncodeChar char ++ rest) = char :: decodeLossy rest := by
  have hne : String.utf8EncodeChar char ++ rest ≠ [] := by simp
  have hdrop : (String.utf8EncodeChar char ++ rest).drop char.utf8Size = rest := by
    rw [← String.length_utf8EncodeChar]
    exact List.drop_left
  rw [decodeLossy, dif_neg hne, utf8Char_encode]
  dsimp only
  rw [hdrop]

theorem decodeLossy_encodeUtf8_append (text : List Char) (rest : Bytes) :
    decodeLossy (encodeUtf8 text ++ rest) = text ++ decodeLossy rest := by
  induction text with
  | nil => rfl
  | cons char text ih =>
    rw [encodeUtf8_cons, List.append_assoc, decodeLossy_encode_append, ih]
    rfl

theorem decodeLossy_fault_append {bytes : Bytes} {length : ℕ} (hchar : utf8Char bytes = none)
    (hfault : utf8Fault bytes = .invalid length) (later : Bytes) :
    decodeLossy (bytes ++ later) = '\uFFFD' :: decodeLossy (bytes.drop length ++ later) := by
  have hne : bytes ++ later ≠ [] := by
    rintro hnil
    rw [(List.append_eq_nil_iff.mp hnil).1] at hfault
    cases hfault
  rw [decodeLossy, dif_neg hne, utf8Char_append_of_fault hchar hfault]
  dsimp only
  split
  next hagain =>
    rw [utf8Fault_append hfault] at hagain
    cases hagain
  next length' hagain =>
    rw [utf8Fault_append hfault] at hagain
    cases hagain
    rw [List.drop_append_of_le_length (utf8Fault_bounds hfault).2]

theorem Unfinished.decodeLossy {bytes : Bytes} (hbytes : Unfinished bytes) (hne : bytes ≠ []) :
    decodeLossy bytes = ['\uFFFD'] := by
  rw [Machine.decodeLossy, dif_neg hne, hbytes.char]
  dsimp only
  split
  next => rfl
  next length hfault =>
    rw [hbytes.fault] at hfault
    cases hfault

/-- What `decodeUtf8` gives is the octets: the text, and those from the first fault on. -/
theorem decodeUtf8_spec {bytes rest : Bytes} {text : List Char} {fault : Option Utf8Fault}
    (hdecode : decodeUtf8 bytes = (text, rest, fault)) :
    bytes = encodeUtf8 text ++ rest ∧ utf8Char rest = none ∧
      fault.elim (rest = []) (utf8Fault rest = ·) := by
  induction bytes using decodeUtf8.induct generalizing text with
  | case1 =>
    rw [decodeUtf8] at hdecode
    cases hdecode
    exact ⟨rfl, rfl, rfl⟩
  | case2 bytes hnil char hchar ih =>
    rw [decodeUtf8, dif_neg hnil, hchar] at hdecode
    obtain ⟨htext, hrest⟩ := Prod.mk.inj hdecode
    obtain ⟨hbytes, hspec⟩ := ih (Prod.ext rfl hrest)
    obtain ⟨later, hlater⟩ := exists_of_utf8Char hchar
    refine ⟨?_, hspec⟩
    rw [hlater, ← String.length_utf8EncodeChar, List.drop_left] at hbytes
    rw [← htext, encodeUtf8_cons, List.append_assoc, hlater, ← String.length_utf8EncodeChar,
      List.drop_left, ← hbytes]
  | case3 bytes hnil hchar =>
    rw [decodeUtf8, dif_neg hnil, hchar] at hdecode
    cases hdecode
    exact ⟨rfl, hchar, rfl⟩

theorem val_ofNat {value : ℕ} (hvalid : value.isValidChar) :
    (Char.ofNat value).val.toNat = value := by
  rw [Char.ofNat, dif_pos hvalid]
  rfl

theorem octet_eq {octet : UInt8} {value : ℕ} (hvalue : value % 2 ^ 8 = octet.toNat) :
    UInt8.ofNat value = octet := by
  rw [← UInt8.toNat_inj]
  exact hvalue

/-- Two octets that fit are a character. -/
theorem exists_char_of_two {first second : UInt8} (hlead : LeadsSeveral first)
    (hfits : FitsFirst first second) (hfirst : first.toNat < 0xE0) :
    ∃ char, String.utf8EncodeChar char = [first, second] := by
  rw [leadsSeveral_iff] at hlead
  rw [fitsFirst_iff] at hfits
  split_ifs at hfits <;> try omega
  obtain ⟨value, hvalue⟩ : ∃ value, value = (first.toNat - 0xC0) * 64 + (second.toNat - 0x80) :=
    ⟨_, rfl⟩
  have hvalid : value.isValidChar := Or.inl (by omega)
  refine ⟨Char.ofNat value, ?_⟩
  rw [String.utf8EncodeChar, val_ofNat hvalid, if_neg (by omega), if_pos (by omega),
    octet_eq (by omega : _ = first.toNat), octet_eq (by omega : _ = second.toNat)]

/-- Three octets that fit are a character. -/
theorem exists_char_of_three {first second third : UInt8} (hfits : FitsFirst first second)
    (hthird : ¬ (third < 0x80 ∨ 0xBF < third)) (hlow : 0xE0 ≤ first.toNat)
    (hhigh : first.toNat < 0xF0) :
    ∃ char, String.utf8EncodeChar char = [first, second, third] := by
  rw [fitsFirst_iff] at hfits
  have hthird : 0x80 ≤ third.toNat ∧ third.toNat ≤ 0xBF := by
    simp only [UInt8.lt_iff_toNat_lt] at hthird
    simp at hthird
    omega
  obtain ⟨value, hvalue⟩ : ∃ value, value = (first.toNat - 0xE0) * 4096 +
      (second.toNat - 0x80) * 64 + (third.toNat - 0x80) := ⟨_, rfl⟩
  have hvalid : value.isValidChar := by
    unfold Nat.isValidChar
    split_ifs at hfits <;> omega
  have hrange : 0x7FF < value ∧ value ≤ 0xFFFF := by
    split_ifs at hfits <;> omega
  have hsecond : 0x80 ≤ second.toNat ∧ second.toNat ≤ 0xBF := by
    split_ifs at hfits <;> omega
  refine ⟨Char.ofNat value, ?_⟩
  rw [String.utf8EncodeChar, val_ofNat hvalid, if_neg (by omega), if_neg (by omega),
    if_pos (by omega), octet_eq (by omega : _ = first.toNat),
    octet_eq (by omega : _ = second.toNat), octet_eq (by omega : _ = third.toNat)]

/-! ### Boundaries -/

/-- An octet that goes on with a character. -/
def IsContinuation (byte : UInt8) : Prop := 128 ≤ byte.toNat ∧ byte.toNat < 192

instance : DecidablePred IsContinuation := fun _ ↦ inferInstanceAs (Decidable (_ ∧ _))

/-- A character is one octet that begins it and octets that go on with it. -/
theorem utf8EncodeChar_shape (char : Char) : ∃ first rest,
    String.utf8EncodeChar char = first :: rest ∧ ¬ IsContinuation first ∧
      (0x7F < char.toNat → 0xC0 ≤ first.toNat) ∧ ∀ byte ∈ rest, IsContinuation byte := by
  have hlead {n : ℕ} (hn : n < 128 ∨ 192 ≤ n ∧ n < 256) : ¬ IsContinuation (UInt8.ofNat n) := by
    rw [IsContinuation, UInt8.toNat_ofNat']
    omega
  have hrest (n : ℕ) : IsContinuation (UInt8.ofNat (n % 64 + 128)) := by
    rw [IsContinuation, UInt8.toNat_ofNat']
    omega
  unfold String.utf8EncodeChar Char.toNat
  dsimp only
  split_ifs
  all_goals
    refine ⟨_, _, rfl, hlead (by omega), by rw [UInt8.toNat_ofNat']; omega, ?_⟩
    simp only [List.forall_mem_cons, hrest, true_and, List.not_mem_nil, false_implies, implies_true]

/-- Octets that are a whole number of characters. -/
def IsWhole (bytes : Bytes) : Prop := ∃ text, bytes = encodeUtf8 text

theorem encodeUtf8_append (first second : List Char) :
    encodeUtf8 (first ++ second) = encodeUtf8 first ++ encodeUtf8 second := List.flatMap_append

/-- A text can be cut exactly where no character goes on. -/
theorem isWhole_drop_iff (text : List Char) {count : ℕ}
    (hcount : count < (encodeUtf8 text).length) :
    IsWhole ((encodeUtf8 text).drop count) ↔ ¬ IsContinuation (octet (encodeUtf8 text) count) := by
  constructor
  · rintro ⟨rest, hrest⟩
    have hfirst : octet (encodeUtf8 text) count = octet (encodeUtf8 rest) 0 := by
      rw [← hrest]
      simp [octet]
    cases rest with
    | nil =>
      have hlength := congrArg List.length hrest
      rw [List.length_drop] at hlength
      change _ = 0 at hlength
      omega
    | cons char rest =>
      obtain ⟨first, tail, hchar, hlead, -⟩ := utf8EncodeChar_shape char
      rw [hfirst, encodeUtf8_cons, hchar]
      exact hlead
  · intro hlead
    induction text generalizing count with
    | nil => exact absurd hcount (Nat.not_lt_zero _)
    | cons char text ih =>
      obtain ⟨first, tail, hchar, -, -, htail⟩ := utf8EncodeChar_shape char
      rw [encodeUtf8_cons] at hcount hlead ⊢
      rcases Nat.lt_or_ge count (String.utf8EncodeChar char).length with hinside | hpast
      · cases count with
        | zero => exact ⟨char :: text, (encodeUtf8_cons char text).symm⟩
        | succ count =>
          rw [octet_append_left hinside, hchar] at hlead
          rw [hchar, List.length_cons] at hinside
          refine absurd (htail _ ?_) hlead
          simp [octet, hinside]
      · obtain ⟨later, rfl⟩ := Nat.exists_eq_add_of_le hpast
        rw [octet_append_right] at hlead
        rw [List.length_append] at hcount
        rw [← List.drop_drop, List.drop_left]
        exact ih (by omega) hlead

end SiphonRtp.Machine
