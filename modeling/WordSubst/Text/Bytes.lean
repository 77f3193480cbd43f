namespace WordSubst

/-- A text as bytes.  It need not be UTF-8. -/
abbrev Bytes := List UInt8

def encodeChars (text : List Char) : Bytes :=
  text.flatMap String.utf8EncodeChar

def utf8 (text : String) : Bytes :=
  encodeChars text.toList

def readUtf8? (bytes : Bytes) : Option String :=
  String.fromUTF8? bytes.toByteArray

@[simp] theorem encodeChars_nil : encodeChars [] = [] := rfl

@[simp] theorem encodeChars_append (first second : List Char) :
    encodeChars (first ++ second) = encodeChars first ++ encodeChars second := by
  simp [encodeChars]

@[simp] theorem utf8_empty : utf8 "" = [] := by
  simp [utf8]

@[simp] theorem utf8_append (first second : String) :
    utf8 (first ++ second) = utf8 first ++ utf8 second := by
  simp [utf8]

theorem utf8_eq_nil_iff {text : String} : utf8 text = [] ↔ text = "" := by
  rw [utf8, encodeChars, List.flatMap_eq_nil_iff, ← String.toList_eq_nil_iff,
    List.eq_nil_iff_forall_not_mem]
  simp only [String.utf8EncodeChar_ne_nil, imp_false]

theorem toByteArray_utf8 (text : String) :
    (utf8 text).toByteArray = text.toByteArray := by
  rw [← String.utf8Encode_toList, utf8, encodeChars, List.utf8Encode]

@[simp] theorem readUtf8?_utf8 (text : String) : readUtf8? (utf8 text) = some text := by
  simp [readUtf8?, toByteArray_utf8, String.fromUTF8?, String.fromUTF8, text.isValidUTF8]

namespace Text

structure HalfRead where
  low : UInt8
  high : UInt8
  more : Nat
  bits : Nat

def replacement : Char := '\uFFFD'

/-- Reads the first byte of a character.  The ranges leave out overlong forms,
surrogates and everything beyond the last code point. -/
def readFirst (byte : UInt8) : List Char × Option HalfRead :=
  if byte ≤ 0x7F then ([Char.ofNat byte.toNat], none)
  else if 0xC2 ≤ byte ∧ byte ≤ 0xDF then ([], some ⟨0x80, 0xBF, 0, byte.toNat - 0xC0⟩)
  else if byte = 0xE0 then ([], some ⟨0xA0, 0xBF, 1, 0⟩)
  else if byte = 0xED then ([], some ⟨0x80, 0x9F, 1, 0xD⟩)
  else if 0xE1 ≤ byte ∧ byte ≤ 0xEF then ([], some ⟨0x80, 0xBF, 1, byte.toNat - 0xE0⟩)
  else if byte = 0xF0 then ([], some ⟨0x90, 0xBF, 2, 0⟩)
  else if 0xF1 ≤ byte ∧ byte ≤ 0xF3 then ([], some ⟨0x80, 0xBF, 2, byte.toNat - 0xF0⟩)
  else if byte = 0xF4 then ([], some ⟨0x80, 0x8F, 2, 4⟩)
  else ([replacement], none)

def readByte (half? : Option HalfRead) (byte : UInt8) : List Char × Option HalfRead :=
  match half? with
  | none => readFirst byte
  | some half =>
    if half.low ≤ byte ∧ byte ≤ half.high then
      let bits := half.bits * 64 + (byte.toNat - 0x80)
      match half.more with
      | 0 => ([Char.ofNat bits], none)
      | more + 1 => ([], some ⟨0x80, 0xBF, more, bits⟩)
    else
      let (chars, half?) := readFirst byte
      (replacement :: chars, half?)

/-- Reads bytes to their end, where a half-read character is malformed too. -/
def readBytes : Option HalfRead → Bytes → List Char
  | none, [] => []
  | some _, [] => [replacement]
  | half?, byte :: rest =>
    let (chars, half?) := readByte half? byte
    chars ++ readBytes half? rest

/-- The text of `bytes`, with a replacement character for each malformed part. -/
def readLossy (bytes : Bytes) : String :=
  String.ofList (readBytes none bytes)

end Text

end WordSubst
