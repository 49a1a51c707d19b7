import SiphonRtp.Machine.Base64
import SiphonRtp.Machine.Text
import SiphonRtp.Srtp.KeyMaterial

/-!
# SDES crypto attributes

`CryptoAttribute` of `siphon-rtp-srtp/src/sdes.rs`: the `a=crypto` line of SDP that carries a master
key, its salt and possibly an MKI, rendered by `toAttributeValue` and read by `parse`. The crate
that codes the key as base64 is a parameter, of which two things are used: decoding what was
encoded gives it back, and a code has only letters, digits and the signs of the standard alphabet.

The fields of a rendered attribute hold none of the separators that the parser splits at, so each
split finds the field again.
-/

set_option autoImplicit false

namespace SiphonRtp.Srtp

open Machine

/-! ### The attribute -/

/-- `SdesError`, without the one of the random number generator. -/
inductive SdesError
  | notCrypto
  | malformed (field : String)
  | unsupportedSuite (name : Text)
  | badKey
  | keyLength (length : ℕ)
  | badMki
deriving DecidableEq

inductive CryptoSuite
  | aesCm128HmacSha180
  | aesCm128HmacSha132
deriving DecidableEq

namespace CryptoSuite

def name : CryptoSuite → Text
  | aesCm128HmacSha180 => "AES_CM_128_HMAC_SHA1_80".toList
  | aesCm128HmacSha132 => "AES_CM_128_HMAC_SHA1_32".toList

/-- `CryptoSuite::from_name`. -/
def fromName (text : Text) : Option CryptoSuite :=
  if text = "AES_CM_128_HMAC_SHA1_80".toList then some aesCm128HmacSha180
  else if text = "AES_CM_128_HMAC_SHA1_32".toList then some aesCm128HmacSha132
  else none

end CryptoSuite

/-- A character of the standard base64 alphabet, or the padding. -/
def isBase64Char (char : Char) : Bool :=
  char.isAlphanum || char == '+' || char == '/' || char == '='

/-- The base64 engine `STANDARD`. -/
structure Base64 where
  encode : Bytes → Text
  decode : Text → Option Bytes
  decode_encode : ∀ bytes, decode (encode bytes) = some bytes
  encode_alphabet : ∀ bytes, ∀ char ∈ encode bytes, isBase64Char char = true

namespace Mki

/-- `Mki::new`. -/
def new (value : UInt64) (length : ℕ) : Except SdesError Mki :=
  if hlength : 1 ≤ length ∧ length ≤ mkiMaxLength then
    if hvalue : length ≥ 8 ∨ value.toNat >>> (8 * length) = 0 then
      .ok ⟨value, length, hlength, hvalue⟩
    else .error .badMki
  else .error .badMki

/-- The closure `decimal` of `Mki::parse`. -/
def parseDecimal (digits : Text) : Except SdesError ℕ :=
  if digits.all Char.isDigit then
    match parseUnsigned (2 ^ 64) digits with
    | some value => .ok value
    | none => .error .badMki
  else .error .badMki

/-- `Mki::parse`. -/
def parse (text : Text) : Except SdesError Mki :=
  match splitOnce ':' text with
  | none => .error .badMki
  | some (value, length) => do
    let length ← parseDecimal length
    let value ← parseDecimal value
    Mki.new (UInt64.ofNat value) length

end Mki

namespace SrtpKeyMaterial

/-- `SrtpKeyMaterial::from_inline_bytes`. -/
def fromInlineBytes (bytes : Bytes) : Except SdesError SrtpKeyMaterial :=
  if bytes.length ≠ 30 then .error (.keyLength bytes.length)
  else
    .ok
      { masterKey := Vector.ofFn fun position ↦ octet bytes position
        masterSalt := Vector.ofFn fun position ↦ octet bytes (16 + position)
        mki := none }

/-- `SrtpKeyMaterial::to_inline_bytes`. -/
def toInlineBytes (material : SrtpKeyMaterial) : Bytes :=
  material.masterKey.toList ++ material.masterSalt.toList

end SrtpKeyMaterial

/-- One crypto context of an `a=crypto` line. -/
structure CryptoAttribute where
  tag : UInt32
  suite : CryptoSuite
  key : SrtpKeyMaterial

namespace CryptoAttribute

variable (B : Base64)

/-- The loop over the parts of a key parameter after the key. -/
def readParts (key : SrtpKeyMaterial) : List Text → Except SdesError SrtpKeyMaterial
  | [] => .ok key
  | part :: parts =>
    if ':' ∈ part then
      if key.mki.isSome then .error .badMki
      else do
        let mki ← Mki.parse part
        readParts { key with mki := some mki } parts
    else readParts key parts

/-- The key of the first key parameter. -/
def parseKey (keyParams : Text) : Except SdesError SrtpKeyMaterial :=
  let first := (keyParams.splitOn ';').headD keyParams
  match stripLead "inline:".toList first with
  | none => .error .badKey
  | some inline =>
    let parts := inline.splitOn '|'
    match B.decode (parts.headD inline) with
    | none => .error .badKey
    | some raw => do
      let key ← SrtpKeyMaterial.fromInlineBytes raw
      readParts key parts.tail

/-- `CryptoAttribute::parse`. -/
def parse (attributeValue : Text) : Except SdesError CryptoAttribute :=
  match stripLead "crypto:".toList attributeValue with
  | none => .error .notCrypto
  | some body =>
    let fields := splitWhitespace body
    match fields[0]?.bind (parseUnsigned (2 ^ 32)) with
    | none => .error (.malformed "tag")
    | some tag =>
      match fields[1]? with
      | none => .error (.malformed "suite")
      | some suiteName =>
        match CryptoSuite.fromName suiteName with
        | none => .error (.unsupportedSuite suiteName)
        | some suite =>
          match fields[2]? with
          | none => .error (.malformed "key-params")
          | some keyParams => do
            let key ← parseKey B keyParams
            .ok ⟨UInt32.ofNat tag, suite, key⟩

/-- The MKI of a key parameter. -/
def mkiText (mki : Option Mki) : Text :=
  match mki with
  | some mki => '|' :: numeral mki.value.toNat ++ ':' :: numeral mki.length
  | none => []

/-- `CryptoAttribute::to_attribute_value`. -/
def toAttributeValue (crypto : CryptoAttribute) : Text :=
  "crypto:".toList ++ (numeral crypto.tag.toNat ++ ' ' :: (crypto.suite.name ++
    ' ' :: ("inline:".toList ++ (B.encode crypto.key.toInlineBytes ++ mkiText crypto.key.mki))))

end CryptoAttribute

/-! ### The MKI -/

namespace Mki

theorem new_eq_ok (mki : Mki) : Mki.new mki.value mki.length = .ok mki := by
  rw [Mki.new, dif_pos mki.length_fits, dif_pos mki.value_fits]

theorem parseDecimal_numeral {n : ℕ} (hn : n < 2 ^ 64) : parseDecimal (numeral n) = .ok n := by
  have hdigits : (numeral n).all Char.isDigit = true :=
    List.all_eq_true.mpr fun _ hmem ↦ isDigit_of_mem_numeral hmem
  rw [parseDecimal, if_pos hdigits, parseUnsigned_numeral hn]

theorem parse_numerals (mki : Mki) :
    Mki.parse (numeral mki.value.toNat ++ ':' :: numeral mki.length) = .ok mki := by
  have hlength : mki.length < 2 ^ 64 := lt_of_le_of_lt mki.length_fits.2 (by decide)
  rw [Mki.parse, splitOnce_append (not_mem_numeral (by decide) _)]
  dsimp only
  rw [parseDecimal_numeral hlength, parseDecimal_numeral mki.value.toNat_lt]
  change Mki.new (UInt64.ofNat mki.value.toNat) mki.length = .ok mki
  rw [UInt64.ofNat_toNat, new_eq_ok]

/-- A field is that of an MKI exactly if it is what the MKI writes. -/
theorem matches_iff (mki : Mki) (field : Bytes) : mki.matches field = true ↔ field = mki.field := by
  constructor
  · intro hmatches
    rw [«matches», Bool.and_eq_true, beq_iff_eq, List.all_eq_true] at hmatches
    obtain ⟨hlength, hoctets⟩ := hmatches
    refine List.ext_getElem (by rw [hlength, length_field]) fun position hleft hright ↦ ?_
    have hmem : (field[position], position) ∈ field.zipIdx :=
      List.mem_zipIdx_iff_getElem?.mpr (List.getElem?_eq_getElem hleft)
    have hoctet := hoctets _ hmem
    rw [beq_iff_eq] at hoctet
    rw [hoctet]
    simp [Mki.field]
  · rintro rfl
    exact mki.matches_field

end Mki

/-! ### Characters of the fields -/

theorem isBase64Char_cases {char : Char} (hchar : isBase64Char char = true) :
    isWhitespace char = false ∧ char ≠ ';' ∧ char ≠ '|' ∧ char ≠ ':' := by
  have hascii : char.toNat < 128 := by
    simp only [isBase64Char, Bool.or_eq_true, beq_iff_eq] at hchar
    rcases hchar with ((halphanum | rfl) | rfl) | rfl
    · exact toNat_lt_of_isAlphanum halphanum
    · decide
    · decide
    · decide
  exact @of_ascii (fun char ↦ isBase64Char char = true →
    isWhitespace char = false ∧ char ≠ ';' ∧ char ≠ '|' ∧ char ≠ ':') (by decide +kernel) char
    hascii hchar

namespace CryptoAttribute

variable (B : Base64)

theorem suiteName_word (suite : CryptoSuite) :
    suite.name ≠ [] ∧ ∀ char ∈ suite.name, isWhitespace char = false := by
  have hall : suite.name.all (fun char ↦ !isWhitespace char) = true := by
    cases suite <;> decide
  refine ⟨by cases suite <;> decide, fun char hmem ↦ ?_⟩
  simpa using List.all_eq_true.mp hall char hmem

theorem numeral_word (n : ℕ) : ∀ char ∈ numeral n, isWhitespace char = false :=
  fun _ hmem ↦ isWhitespace_of_isDigit (isDigit_of_mem_numeral hmem)

/-- The MKI of a key parameter holds no white space and no semicolon. -/
theorem mem_mkiText {mki : Option Mki} {char : Char} (hmem : char ∈ mkiText mki) :
    isWhitespace char = false ∧ char ≠ ';' := by
  cases mki with
  | none => exact absurd hmem List.not_mem_nil
  | some mki =>
    have hdigit : ∀ n, char ∈ numeral n → isWhitespace char = false ∧ char ≠ ';' := by
      intro n hnumeral
      refine ⟨isWhitespace_of_isDigit (isDigit_of_mem_numeral hnumeral), ?_⟩
      rintro rfl
      exact not_mem_numeral (by decide) n hnumeral
    simp only [mkiText, List.cons_append, List.mem_cons, List.mem_append] at hmem
    rcases hmem with rfl | hvalue | rfl | hlength
    · exact ⟨by decide, by decide⟩
    · exact hdigit _ hvalue
    · exact ⟨by decide, by decide⟩
    · exact hdigit _ hlength

/-- A key parameter is one word without a semicolon. -/
theorem mem_keyParam {key : SrtpKeyMaterial} {char : Char}
    (hmem : char ∈ "inline:".toList ++ (B.encode key.toInlineBytes ++ mkiText key.mki)) :
    isWhitespace char = false ∧ char ≠ ';' := by
  have hlead : "inline:".toList.all (fun char ↦ !isWhitespace char && char != ';') = true := by
    decide
  rcases List.mem_append.mp hmem with hinline | hrest
  · simpa using List.all_eq_true.mp hlead char hinline
  · rcases List.mem_append.mp hrest with hcode | hmki
    · have hcases := isBase64Char_cases (B.encode_alphabet _ char hcode)
      exact ⟨hcases.1, hcases.2.1⟩
    · exact mem_mkiText hmki

/-! ### What is rendered parses -/

theorem fromName_name (suite : CryptoSuite) : CryptoSuite.fromName suite.name = some suite := by
  cases suite <;> decide

theorem fromInlineBytes_toInlineBytes (key : SrtpKeyMaterial) :
    SrtpKeyMaterial.fromInlineBytes key.toInlineBytes = .ok { key with mki := none } := by
  have hlength : key.toInlineBytes.length = 30 := by
    simp [SrtpKeyMaterial.toInlineBytes]
  have hkey : (Vector.ofFn fun position : Fin 16 ↦ octet key.toInlineBytes position) =
      key.masterKey := by
    refine Vector.ext fun position hposition ↦ ?_
    rw [Vector.getElem_ofFn, SrtpKeyMaterial.toInlineBytes,
      octet_append_left (by simpa using hposition)]
    simp [octet, hposition]
  have hsalt : (Vector.ofFn fun position : Fin 14 ↦ octet key.toInlineBytes (16 + position)) =
      key.masterSalt := by
    refine Vector.ext fun position hposition ↦ ?_
    have hright := octet_append_right key.masterKey.toList key.masterSalt.toList position
    rw [Vector.length_toList] at hright
    rw [Vector.getElem_ofFn, SrtpKeyMaterial.toInlineBytes, hright]
    simp [octet, hposition]
  rw [SrtpKeyMaterial.fromInlineBytes, if_neg (not_not.mpr hlength), hkey, hsalt]

theorem readParts_mkiText (key : SrtpKeyMaterial) (code : Text) (hcode : '|' ∉ code) :
    ∃ parts, (code ++ mkiText key.mki).splitOn '|' = code :: parts ∧
      readParts { key with mki := none } parts = .ok key := by
  rcases hmki : key.mki with _ | mki
  · refine ⟨[], ?_, ?_⟩
    · rw [mkiText, List.append_nil, splitOn_part hcode]
    · rw [readParts, ← hmki]
  · have hfield : '|' ∉ numeral mki.value.toNat ++ ':' :: numeral mki.length := by
      simp only [List.mem_append, List.mem_cons, not_or]
      exact ⟨not_mem_numeral (by decide) _, by decide, not_mem_numeral (by decide) _⟩
    refine ⟨[numeral mki.value.toNat ++ ':' :: numeral mki.length], ?_, ?_⟩
    · rw [mkiText, List.cons_append, splitOn_cons hcode, splitOn_part hfield]
    · rw [readParts, if_pos (by simp), Mki.parse_numerals]
      change Except.ok ({ key with mki := some mki } : SrtpKeyMaterial) = _
      rw [← hmki]

theorem parseKey_rendered (key : SrtpKeyMaterial) :
    parseKey B ("inline:".toList ++ (B.encode key.toInlineBytes ++ mkiText key.mki)) = .ok key := by
  have hsemicolon : ';' ∉ "inline:".toList ++ (B.encode key.toInlineBytes ++ mkiText key.mki) :=
    fun hmem ↦ (mem_keyParam B hmem).2 rfl
  have hcode : '|' ∉ B.encode key.toInlineBytes := fun hmem ↦
    (isBase64Char_cases (B.encode_alphabet _ _ hmem)).2.2.1 rfl
  obtain ⟨parts, hsplit, hparts⟩ := readParts_mkiText key (B.encode key.toInlineBytes) hcode
  unfold parseKey
  dsimp only
  rw [splitOn_part hsemicolon, List.headD_cons, stripLead_append]
  dsimp only
  rw [hsplit, List.headD_cons, B.decode_encode]
  dsimp only
  rw [fromInlineBytes_toInlineBytes]
  exact hparts

theorem parse_toAttributeValue (crypto : CryptoAttribute) :
    parse B (crypto.toAttributeValue B) = .ok crypto := by
  have hspace : isWhitespace ' ' = true := by decide
  have hparam : splitWhitespace ("inline:".toList ++
      (B.encode crypto.key.toInlineBytes ++ mkiText crypto.key.mki)) =
        ["inline:".toList ++ (B.encode crypto.key.toInlineBytes ++ mkiText crypto.key.mki)] :=
    splitWhitespace_word (by simp) fun _ hmem ↦ (mem_keyParam B hmem).1
  unfold parse toAttributeValue
  rw [stripLead_append]
  dsimp only
  rw [splitWhitespace_cons (numeral_ne_nil _) (numeral_word _) hspace,
    splitWhitespace_cons (suiteName_word crypto.suite).1 (suiteName_word crypto.suite).2 hspace,
    hparam]
  dsimp only [List.getElem?_cons_zero, List.getElem?_cons_succ, Option.bind_some]
  rw [parseUnsigned_numeral crypto.tag.toNat_lt]
  rw [fromName_name]
  rw [parseKey_rendered]
  change Except.ok (⟨UInt32.ofNat crypto.tag.toNat, crypto.suite, crypto.key⟩ : CryptoAttribute) = _
  rw [UInt32.ofNat_toNat]

/-- SDES attributes round-trip. Assumes of base64 what its structure has: decoding what was encoded
gives it back, in letters of the standard alphabet. A rendered attribute parses to itself, for every
tag, suite, key and MKI; an MKI field is accepted if and only if it is what the MKI writes, and
stripped from a packet if and only if the packet ends in it. -/
theorem sdes_round_trip :
    (∀ crypto : CryptoAttribute, parse B (crypto.toAttributeValue B) = .ok crypto) ∧
      (∀ (mki : Mki) (field : Bytes), mki.matches field = true ↔ field = mki.field) ∧
      ∀ (mki : Mki) (protectedPart authenticated : Bytes),
        stripMki protectedPart (some mki) = .ok authenticated ↔
          protectedPart = authenticated ++ mki.field := by
  refine ⟨parse_toAttributeValue B, Mki.matches_iff, ?_⟩
  intro mki protectedPart authenticated
  constructor
  · intro hstrip
    rw [stripMki] at hstrip
    dsimp only at hstrip
    split at hstrip
    · cases hstrip
    split at hstrip
    next hmatches =>
      rw [Mki.matches_iff] at hmatches
      rw [← Except.ok.inj hstrip, ← hmatches, List.take_append_drop]
    · cases hstrip
  · rintro rfl
    exact stripMki_append authenticated (some mki)

end CryptoAttribute

/-- Base64 as `Machine/Base64.lean` has it. -/
def standardCode : Base64 where
  encode bytes := (base64Encode bytes).map Char.ofUInt8
  decode text := base64Decode (text.map Char.toUInt8)
  decode_encode bytes := by
    have hletter (letter : UInt8) : (Char.ofUInt8 letter).toUInt8 = letter :=
      UInt8.toUInt8_toUInt32 letter
    simp only [List.map_map, Function.comp_def, hletter, List.map_id', base64Decode_encode]
  encode_alphabet bytes := by
    rw [List.forall_mem_map]
    exact forall_mem_base64Encode (by decide) (by decide) bytes

/-- A key with an MKI of three octets. -/
def identifiedCrypto : CryptoAttribute where
  tag := 4294967295
  suite := .aesCm128HmacSha180
  key :=
    { masterKey := Vector.ofFn fun position ↦ UInt8.ofNat position
      masterSalt := Vector.replicate 14 255
      mki := some ⟨70000, 3, by decide, by decide⟩ }

theorem sdes_round_trip_identified :
    CryptoAttribute.parse standardCode (identifiedCrypto.toAttributeValue standardCode) =
      .ok identifiedCrypto :=
  (CryptoAttribute.sdes_round_trip standardCode).1 identifiedCrypto

end SiphonRtp.Srtp
