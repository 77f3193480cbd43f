import WordSubst.Proofs.Finder.Fit

namespace WordSubst

/-- A place between two characters, before the first or after the last. -/
def CharEdge (text : String) (place : Nat) : Prop :=
  String.Pos.Raw.IsValid text ⟨place⟩

def IsUtf8 (bytes : Bytes) : Prop :=
  ∃ text, bytes = utf8 text

section Edges

variable {text spelled : String} {place start stop : Nat}

theorem utf8_injective : Function.Injective utf8 := by
  intro first second same
  have read := readUtf8?_utf8 first
  rw [same, readUtf8?_utf8] at read
  exact (Option.some.inj read).symm

theorem length_utf8 (text : String) : (utf8 text).length = text.utf8ByteSize := by
  rw [← List.size_toByteArray, toByteArray_utf8, String.size_toByteArray]

theorem charEdge_iff_append :
    CharEdge text place ↔
      ∃ before after, text = before ++ after ∧ place = (utf8 before).length := by
  rw [CharEdge, String.Pos.Raw.isValid_iff_exists_append]
  simp only [String.Pos.Raw.ext_iff, String.byteIdx_rawEndPos, length_utf8]

theorem charEdge_iff_firstByte :
    CharEdge text place ↔ place = (utf8 text).length ∨
      ∃ inside : place < (utf8 text).length, (utf8 text)[place].IsUTF8FirstByte := by
  rw [CharEdge, String.Pos.Raw.isValid_iff_isUTF8FirstByte]
  simp [String.Pos.Raw.ext_iff, String.Pos.Raw.lt_iff, length_utf8, String.getUTF8Byte,
    ← toByteArray_utf8]

theorem charEdge_zero (text : String) : CharEdge text 0 :=
  charEdge_iff_append.mpr ⟨"", text, by simp, by simp⟩

theorem charEdge_length (text : String) : CharEdge text (utf8 text).length :=
  charEdge_iff_firstByte.mpr (.inl rfl)

theorem exists_append_of_prefix {first text : String} (stands : utf8 first <+: utf8 text) :
    ∃ rest, text = first ++ rest := by
  obtain ⟨onward, split⟩ := stands
  have bytes : first.toList.utf8Encode ++ onward.toByteArray = text.toList.utf8Encode := by
    rw [List.utf8Encode, List.utf8Encode, ← List.toByteArray_append]
    exact congrArg _ split
  obtain ⟨rest, chars⟩ := List.isPrefix_of_utf8Encode_append_eq_utf8Encode _ bytes
  have same : text = first ++ String.ofList rest := by
    rw [← String.toList_inj, String.toList_append, String.toList_ofList, chars]
  exact ⟨_, same⟩

/-- What begins a text in bytes begins it in characters. -/
theorem utf8_prefix_iff {first text : String} :
    utf8 first <+: utf8 text ↔ first.toList <+: text.toList := by
  constructor
  · intro stands
    obtain ⟨rest, rfl⟩ := exists_append_of_prefix stands
    rw [String.toList_append]
    exact List.prefix_append _ _
  · rintro ⟨rest, chars⟩
    have split : text = first ++ String.ofList rest := by
      rw [← String.toList_inj, String.toList_append, String.toList_ofList, chars]
    rw [split, utf8_append]
    exact List.prefix_append _ _

/-- The first byte of a character is never one of its later bytes. -/
theorem charEdge_of_prefix (something : spelled ≠ "")
    (stands : utf8 spelled <+: (utf8 text).drop place) :
    CharEdge text place ∧ CharEdge text (place + (utf8 spelled).length) := by
  have start : CharEdge text place := by
    rcases charEdge_iff_firstByte.mp (charEdge_zero spelled) with nothing | found
    · have blank := List.eq_nil_of_length_eq_zero nothing.symm
      exact absurd (utf8_eq_nil_iff.mp blank) something
    · obtain ⟨inside, first⟩ := found
      have here := List.prefix_iff_getElem?.mp stands 0 inside
      rw [List.getElem?_drop, Nat.add_zero] at here
      obtain ⟨within, same⟩ := List.getElem?_eq_some_iff.mp here
      exact charEdge_iff_firstByte.mpr (.inr ⟨within, same ▸ first⟩)
  -- The text is cut at the first edge, and what stands there is then its beginning.
  obtain ⟨before, after, rfl, rfl⟩ := charEdge_iff_append.mp start
  rw [utf8_append, List.drop_left] at stands
  obtain ⟨rest, rfl⟩ := exists_append_of_prefix stands
  have stop : CharEdge (before ++ (spelled ++ rest))
      ((utf8 before).length + (utf8 spelled).length) :=
    charEdge_iff_append.mpr ⟨before ++ spelled, rest, (String.append_assoc).symm,
      by rw [utf8_append, List.length_append]⟩
  exact ⟨start, stop⟩

theorem utf8_ofUInt8 {byte : UInt8} (ascii : byte < 0x80) :
    utf8 (String.singleton (Char.ofUInt8 byte)) = [byte] := by
  have small : (Char.ofUInt8 byte).utf8Size = 1 := by
    rw [Char.utf8Size_eq_one_iff]
    have code : (Char.ofUInt8 byte).val.toNat = byte.toNat := UInt8.toNat_toUInt32 byte
    rw [UInt32.le_iff_toNat_le, code]
    exact Nat.le_of_lt_succ ascii
  rw [utf8, String.toList_singleton, encodeChars, List.flatMap_singleton,
    String.utf8EncodeChar_eq_singleton small]
  exact congrArg (fun byte => [byte]) (UInt8.toUInt8_toUInt32 byte)

theorem lt_of_isWordByte {byte : UInt8} (letter : isWordByte byte = true) : byte < 0x80 := by
  simp only [isWordByte, Bool.or_eq_true, Bool.and_eq_true, decide_eq_true_eq, beq_iff_eq,
    UInt8.le_iff_toNat_le, ← UInt8.toNat_inj] at letter
  rw [UInt8.lt_iff_toNat_lt]
  simp only [UInt8.reduceToNat] at letter ⊢
  omega

/-- A word byte is a character by itself. -/
theorem charEdge_of_wordAfter (word : wordAfter (utf8 text) place = true) :
    CharEdge text place ∧ CharEdge text (place + 1) := by
  obtain ⟨byte, here, letter⟩ := (Option.any_eq_true _ _).mp word
  have char := utf8_ofUInt8 (lt_of_isWordByte letter)
  have stands : utf8 (String.singleton (Char.ofUInt8 byte)) <+: (utf8 text).drop place := by
    obtain ⟨inside, rfl⟩ := List.getElem?_eq_some_iff.mp here
    rw [char, List.drop_eq_getElem_cons inside]
    exact ⟨_, rfl⟩
  have edges := charEdge_of_prefix (by simp) stands
  rwa [char] at edges

theorem charEdge_of_isEdge (edge : IsEdge (utf8 text) place) : CharEdge text place := by
  cases after : wordAfter (utf8 text) place with
  | true => exact (charEdge_of_wordAfter after).1
  | false =>
      rw [IsEdge, after, ne_eq, Bool.not_eq_false] at edge
      cases place with
      | zero => exact charEdge_zero text
      | succ before => exact (charEdge_of_wordAfter edge).2

end Edges

theorem isUtf8_nil : IsUtf8 [] :=
  ⟨"", utf8_empty.symm⟩

theorem IsUtf8.append {first second : Bytes} (isFirst : IsUtf8 first) (isSecond : IsUtf8 second) :
    IsUtf8 (first ++ second) := by
  obtain ⟨text, rfl⟩ := isFirst
  obtain ⟨rest, rfl⟩ := isSecond
  exact ⟨text ++ rest, (utf8_append text rest).symm⟩

theorem isUtf8_cut {text : String} {start stop : Nat} (first : CharEdge text start)
    (last : CharEdge text stop) : IsUtf8 (cut (utf8 text) (start, stop)) := by
  obtain ⟨before, after, split, rfl⟩ := charEdge_iff_append.mp first
  obtain ⟨whole, rest, splitLast, rfl⟩ := charEdge_iff_append.mp last
  rcases Nat.le_total (utf8 whole).length (utf8 before).length with shorter | longer
  · rw [cut, Nat.sub_eq_zero_of_le shorter, List.take_zero]
    exact isUtf8_nil
  · have begins : utf8 before <+: utf8 text := ⟨utf8 after, by rw [split, utf8_append]⟩
    have ends : utf8 whole <+: utf8 text := ⟨utf8 rest, by rw [splitLast, utf8_append]⟩
    have within := List.prefix_of_prefix_length_le begins ends longer
    obtain ⟨between, rfl⟩ := exists_append_of_prefix within
    have same : cut (utf8 text) ((utf8 before).length, (utf8 (before ++ between)).length) =
        utf8 between := by
      simp [cut, splitLast]
    exact ⟨between, same⟩

end WordSubst
