import WordSubst.Proofs.Pattern.Numeral
import WordSubst.Text.Display

namespace WordSubst.Text

/-- The control characters of ASCII. -/
def isControl (c : Char) : Bool :=
  c < ' ' || c = '\x7F'

/-- The characters that are written as a letter after a backslash. -/
def letters : List (Char × Char) :=
  [('\x00', '0'), ('\t', 't'), ('\r', 'r'), ('\n', 'n'), ('"', '"'), ('\\', '\\')]

/-- The three ways in which a character is written between quotation marks. -/
inductive QuotedAs (c : Char) : (written : List Char) → Prop where
  | letter : (c, letter) ∈ letters → QuotedAs c ['\\', letter]
  | bare : c ≠ '"' → c ≠ '\\' → isGraphic c = true → QuotedAs c [c]
  | code : QuotedAs c (spellCode c.toNat)

theorem isControl_iff {c : Char} : isControl c = true ↔ c.toNat < 0x20 ∨ c.toNat = 0x7F := by
  rw [isControl, Bool.or_eq_true, decide_eq_true_eq, decide_eq_true_eq, ← Char.toNat_inj]
  exact Iff.rfl

theorem isControl_eq_false_of_any {text : List Char} (plain : text.any isControl = false) :
    ∀ c ∈ text, isControl c = false :=
  fun c member => Bool.eq_false_of_not_eq_true (List.any_eq_false.mp plain c member)

section Numbers

variable {radix value number : Nat} {stop : Char} {rest other : List Char}

theorem append_cons_inj {text otherText : List Char} (absent : stop ∉ text)
    (absentToo : stop ∉ otherText) (same : text ++ stop :: rest = otherText ++ stop :: other) :
    text = otherText ∧ rest = other := by
  rcases List.append_eq_append_iff.mp same with ⟨more, split, onward⟩ | ⟨more, split, onward⟩
  · cases more with
    | nil => exact ⟨by rw [split, List.append_nil], (List.cons.inj onward).2⟩
    | cons c later =>
        have first : stop = c := (List.cons.inj onward).1
        exact absurd (by simp [split, first]) absentToo
  · cases more with
    | nil => exact ⟨by rw [split, List.append_nil], (List.cons.inj onward).2.symm⟩
    | cons c later =>
        have first : stop = c := (List.cons.inj onward).1
        exact absurd (by simp [split, first]) absent

/-- A number ends before the first character that is no digit. -/
theorem toDigits_append_inj (large : 1 < radix) (small : radix ≤ 16)
    (apart : stop.toLower ∉ digitChars)
    (same : Nat.toDigits radix value ++ stop :: rest = Nat.toDigits radix number ++ stop :: other) :
    value = number ∧ rest = other := by
  have absent : ∀ written : Nat, stop ∉ Nat.toDigits radix written := by
    intro written member
    obtain ⟨digit, isDigit⟩ := (numeral_toDigits large small written).digits stop member
    exact apart isDigit.mem_digitChars
  obtain ⟨digits, rests⟩ := append_cons_inj (absent value) (absent number) same
  exact ⟨toDigits_injective large small digits, rests⟩

theorem spellCode_append_inj (same : spellCode value ++ rest = spellCode number ++ other) :
    value = number ∧ rest = other := by
  simp only [spellCode, List.append_assoc, List.cons_append, List.nil_append, List.cons.injEq,
    true_and] at same
  exact toDigits_append_inj (by decide) (by decide) (by decide) same

theorem isControl_ascii : ∀ code < 128,
    isControl (Char.ofNat code) = true → (Char.ofNat code).toLower ∉ digitChars := by
  decide

theorem isControl_eq_false_of_isDigit {c : Char} {digit : Nat} (isDigit : IsDigit radix c digit) :
    isControl c = false := by
  refine Bool.eq_false_iff.mpr fun control => ?_
  have absent := isControl_ascii c.toNat (by have := isControl_iff.mp control; omega)
  rw [Char.ofNat_toNat] at absent
  exact absent control isDigit.mem_digitChars

theorem isControl_eq_false_of_mem_toDigits (large : 1 < radix) (small : radix ≤ 16) (value : Nat) :
    ∀ c ∈ Nat.toDigits radix value, isControl c = false := by
  intro c member
  obtain ⟨digit, isDigit⟩ := (numeral_toDigits large small value).digits c member
  exact isControl_eq_false_of_isDigit isDigit

end Numbers

section Characters

variable {c d : Char} {written writtenToo rest other : List Char}

theorem quotedAs_quoteChar (c : Char) : QuotedAs c (quoteChar c) := by
  by_cases lettered : ∃ letter, (c, letter) ∈ letters
  · obtain ⟨letter, listed⟩ := lettered
    have named : ∀ pair ∈ letters, quoteChar pair.1 = ['\\', pair.2] := by decide
    rw [named _ listed]
    exact .letter listed
  · have apart : ∀ pair ∈ letters, c ≠ pair.1 :=
      fun pair listed same => lettered ⟨pair.2, same ▸ listed⟩
    have unnamed : quoteChar c = if isGraphic c then [c] else spellCode c.toNat := by
      simp only [letters, List.forall_mem_cons] at apart
      simp [quoteChar, apart]
    rw [unnamed]
    by_cases graphic : isGraphic c = true
    · rw [if_pos graphic]
      exact .bare (apart ('"', '"') (by decide)) (apart ('\\', '\\') (by decide)) graphic
    · rw [if_neg graphic]
      exact .code

/-- The three ways begin differently, and each tells the character and where it ends. -/
theorem QuotedAs.append_inj (quoted : QuotedAs c written) (quotedToo : QuotedAs d writtenToo)
    (same : written ++ rest = writtenToo ++ other) : c = d ∧ rest = other := by
  have named : ∀ pair ∈ letters, ∀ pairToo ∈ letters, pair.2 = pairToo.2 → pair.1 = pairToo.1 := by
    decide
  have spelled : ∀ pair ∈ letters, pair.2 ≠ 'u' := by decide
  cases quoted with
  | @letter letter listed =>
      cases quotedToo with
      | @letter letterToo listedToo =>
          obtain ⟨_, letters, rests⟩ : '\\' = '\\' ∧ letter = letterToo ∧ rest = other := by
            simpa using same
          exact ⟨named _ listed _ listedToo letters, rests⟩
      | bare _ apart _ => exact absurd (List.cons.inj same).1.symm apart
      | code => exact absurd (List.cons.inj (List.cons.inj same).2).1 (spelled _ listed)
  | bare _ apart _ =>
      cases quotedToo with
      | letter _ => exact absurd (List.cons.inj same).1 apart
      | bare _ _ _ => exact List.cons.inj same
      | code => exact absurd (List.cons.inj same).1 apart
  | code =>
      cases quotedToo with
      | letter listedToo =>
          exact absurd (List.cons.inj (List.cons.inj same).2).1.symm (spelled _ listedToo)
      | bare _ apart _ => exact absurd (List.cons.inj same).1.symm apart
      | code =>
          obtain ⟨codes, rests⟩ := spellCode_append_inj same
          exact ⟨Char.toNat_inj.mp codes, rests⟩

theorem QuotedAs.exists_cons (quoted : QuotedAs c written) :
    ∃ first later, written = first :: later ∧ first ≠ '"' := by
  cases quoted with
  | letter _ => exact ⟨_, _, rfl, by decide⟩
  | bare apart _ _ => exact ⟨_, _, rfl, apart⟩
  | code => exact ⟨_, _, rfl, by decide⟩

/-- The control characters are in the first two ranges of what is not printable. -/
theorem isControl_eq_false_of_isGraphic (graphic : isGraphic c = true) : isControl c = false := by
  refine Bool.eq_false_iff.mpr fun control => ?_
  have shapeless : inRanges unprintable c.toNat = true := by
    rcases isControl_iff.mp control with low | delete
    · exact List.any_eq_true.mpr ⟨(0x0000, 0x001f), .head _, by simp; omega⟩
    · exact List.any_eq_true.mpr ⟨(0x007f, 0x00a0), .tail _ (.head _), by simp [delete]⟩
  simp [isGraphic, shapeless] at graphic

theorem QuotedAs.isControl_eq_false (quoted : QuotedAs c written) :
    ∀ d ∈ written, isControl d = false := by
  cases quoted with
  | letter listed =>
      have plain : ∀ pair ∈ letters, ['\\', pair.2].any Text.isControl = false := by decide
      exact isControl_eq_false_of_any (plain _ listed)
  | bare _ _ graphic =>
      intro d member
      rw [List.mem_singleton.mp member]
      exact isControl_eq_false_of_isGraphic graphic
  | code =>
      have opening : ∀ d ∈ ['\\', 'u', '\x7b'], Text.isControl d = false :=
        isControl_eq_false_of_any (by decide)
      have digits : ∀ d ∈ Nat.toDigits 16 c.toNat, Text.isControl d = false :=
        isControl_eq_false_of_mem_toDigits (by decide) (by decide) c.toNat
      have closing : ∀ d ∈ ['\x7d'], Text.isControl d = false :=
        isControl_eq_false_of_any (by decide)
      exact List.forall_mem_append.mpr ⟨List.forall_mem_append.mpr ⟨opening, digits⟩, closing⟩

end Characters

/-- A written string ends at the first quotation mark with which no character begins. -/
theorem flatMap_quoteChar_append_inj {text otherText rest other : List Char}
    (same : text.flatMap quoteChar ++ '"' :: rest = otherText.flatMap quoteChar ++ '"' :: other) :
    text = otherText ∧ rest = other := by
  induction text generalizing otherText with
  | nil =>
      cases otherText with
      | nil => exact ⟨rfl, (List.cons.inj same).2⟩
      | cons d later =>
          obtain ⟨first, onward, written, apart⟩ := (quotedAs_quoteChar d).exists_cons
          rw [List.flatMap_cons, written] at same
          exact absurd (List.cons.inj same).1.symm apart
  | cons c text ih =>
      cases otherText with
      | nil =>
          obtain ⟨first, onward, written, apart⟩ := (quotedAs_quoteChar c).exists_cons
          rw [List.flatMap_cons, written] at same
          exact absurd (List.cons.inj same).1 apart
      | cons d later =>
          rw [List.flatMap_cons, List.flatMap_cons, List.append_assoc, List.append_assoc] at same
          obtain ⟨first, onward⟩ :=
            (quotedAs_quoteChar c).append_inj (quotedAs_quoteChar d) same
          obtain ⟨texts, rests⟩ := ih onward
          exact ⟨by rw [first, texts], rests⟩

theorem toList_quote (text : String) :
    (quote text).toList = '"' :: (text.toList.flatMap quoteChar ++ ['"']) :=
  String.toList_ofList

/-- A quoted string tells the string and where it ends, whatever follows it. -/
theorem quote_append_inj {text otherText : String} {rest other : List Char}
    (same : (quote text).toList ++ rest = (quote otherText).toList ++ other) :
    text = otherText ∧ rest = other := by
  rw [toList_quote, toList_quote, List.cons_append, List.cons_append, List.append_assoc,
    List.append_assoc] at same
  obtain ⟨texts, rests⟩ := flatMap_quoteChar_append_inj (List.cons.inj same).2
  exact ⟨String.toList_inj.mp texts, rests⟩

theorem isControl_eq_false_of_mem_quote (text : String) :
    ∀ c ∈ (quote text).toList, isControl c = false := by
  intro c member
  rw [toList_quote] at member
  rcases List.mem_cons.mp member with rfl | inside
  · rfl
  · rcases List.mem_append.mp inside with written | closing
    · obtain ⟨d, _, inChar⟩ := List.mem_flatMap.mp written
      exact (quotedAs_quoteChar d).isControl_eq_false c inChar
    · rw [List.mem_singleton.mp closing]
      rfl

end WordSubst.Text
