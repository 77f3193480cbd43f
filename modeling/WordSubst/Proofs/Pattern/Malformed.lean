import WordSubst.Proofs.Pattern.Grammar
import WordSubst.Proofs.Text.CharEdge

namespace WordSubst

/-- The text begins with so many digits, and the number that they spell is accepted. -/
def BeginsNumber (radix count : Nat) (accepted : Nat → Prop) (text : List Char) : Prop :=
  ∃ digits number, digits <+: text ∧ digits.length = count ∧ Numeral radix digits number ∧
    accepted number

/-- What stands after a backslash begins no escape that names a character. -/
inductive Misnames : (text : List Char) → (fault : EscapeFault) → Prop where
  | trailing : Misnames [] .trailing
  | twoHex : ¬ BeginsNumber 16 2 (· ≤ 0x7F) rest → Misnames ('x' :: rest) .twoHex
  | fourHex : ¬ BeginsNumber 16 4 Nat.isValidChar rest → Misnames ('u' :: rest) .fourHex
  | eightHex : ¬ BeginsNumber 16 8 Nat.isValidChar rest → Misnames ('U' :: rest) .eightHex
  | octal : IsDigit 8 first digit → ¬ BeginsNumber 8 3 (· ≤ 0o177) (first :: rest) →
      Misnames (first :: rest) .octal

theorem EscapeFault.reason_injective : Function.Injective EscapeFault.reason := by
  intro fault other same
  cases fault <;> cases other <;> simp [reason] at same ⊢

section Escapes

variable {form : NumberForm} {first : Char} {text rest : List Char} {fault : EscapeFault}

theorem BeginsNumber.congr {radix count : Nat} {accepted other : Nat → Prop}
    (same : ∀ number, accepted number ↔ other number) :
    BeginsNumber radix count accepted text ↔ BeginsNumber radix count other text := by
  simp only [BeginsNumber, same]

/-- A number that begins with a known digit goes on with the digits that it lacks. -/
theorem beginsNumber_cons_iff {radix count digit : Nat} {accepted : Nat → Prop}
    (isDigit : IsDigit radix first digit) :
    BeginsNumber radix (count + 1) accepted (first :: rest) ↔
      BeginsNumber radix count (fun number => accepted (digit * radix ^ count + number)) rest := by
  constructor
  · rintro ⟨digits, number, begins, length, numeral, isAccepted⟩
    cases numeral with
    | nil => simp at length
    | @cons _ _ later value isOther numeral =>
        obtain ⟨rfl, onward⟩ := List.cons_prefix_cons.mp begins
        obtain rfl := isDigit.unique isOther
        obtain rfl := Nat.succ.inj length
        exact ⟨later, value, onward, rfl, numeral, isAccepted⟩
  · rintro ⟨digits, number, begins, rfl, numeral, isAccepted⟩
    exact ⟨first :: digits, _, List.cons_prefix_cons.mpr ⟨rfl, begins⟩, rfl,
      .cons isDigit numeral, isAccepted⟩

/-- The number of the digits that a form reads, after what it starts with, is that of
a character within its limit. -/
def NumberForm.Accepts (form : NumberForm) (number : Nat) : Prop :=
  (form.start.toNat * form.radix.toNat ^ form.count + number).isValidChar ∧
    form.start.toNat * form.radix.toNat ^ form.count + number ≤ form.limit.toNat

theorem NumberForm.exists_read_iff (fits : form.Fits) :
    (∃ value, form.read text = .ok value) ↔
      BeginsNumber form.radix.toNat form.count form.Accepts text := by
  constructor
  · rintro ⟨⟨c, left⟩, read⟩
    obtain ⟨digits, number, rfl, length, numeral, named, limited⟩ :=
      (NumberForm.read_eq_ok_iff fits).mp read
    have accepted : form.Accepts number := by
      rw [Accepts, ← named]
      exact ⟨c.valid, limited⟩
    exact ⟨digits, number, List.prefix_append _ _, length, numeral, accepted⟩
  · rintro ⟨digits, number, ⟨left, rfl⟩, length, numeral, valid, limited⟩
    have read : form.read (digits ++ left) = .ok (Char.ofNatAux _ valid, left) :=
      (NumberForm.read_eq_ok_iff fits).mpr ⟨digits, number, rfl, length, numeral, rfl, limited⟩
    exact ⟨_, read⟩

/-- A form has one fault, and it is the only reason why nothing is read. -/
theorem NumberForm.read_eq_error_iff :
    form.read text = .error fault ↔
      fault = form.fault ∧ ¬ ∃ value, form.read text = .ok value := by
  have failed : ∀ other, form.read text = .error other → other = form.fault := by
    intro other read
    unfold NumberForm.read at read
    split at read
    · split at read <;> cases read
      rfl
    · cases read
      rfl
  cases read : form.read text with
  | ok value => simp
  | error other =>
      obtain rfl := failed other read
      simp [eq_comm]

theorem readEscape_numbered_eq_error_iff (numeric : numberForm? first = some form) :
    readEscape (first :: rest) = .error fault ↔
      fault = form.fault ∧ ¬ BeginsNumber form.radix.toNat form.count form.Accepts rest := by
  rw [readEscape_of_numbered numeric, NumberForm.read_eq_error_iff,
    NumberForm.exists_read_iff (fits_of_numberForm? numeric)]

theorem accepts_twoHex (number : Nat) :
    NumberForm.Accepts ⟨.twoHex, 16, 2, 0, 0x7F⟩ number ↔ number ≤ 0x7F := by
  simp only [NumberForm.Accepts, UInt32.reduceToNat, Nat.isValidChar]
  omega

theorem accepts_hex (fault : EscapeFault) (count number : Nat) :
    NumberForm.Accepts ⟨fault, 16, count, 0, 0x10FFFF⟩ number ↔ number.isValidChar := by
  simp only [NumberForm.Accepts, UInt32.reduceToNat, Nat.isValidChar, Nat.zero_mul, Nat.zero_add]
  omega

theorem accepts_octal (digit : UInt32) (number : Nat) :
    NumberForm.Accepts ⟨.octal, 8, 2, digit, 0x7F⟩ number ↔
      digit.toNat * 8 ^ 2 + number ≤ 0o177 := by
  simp only [NumberForm.Accepts, UInt32.reduceToNat, Nat.isValidChar]
  omega

theorem readEscape_eq_error_iff : readEscape text = .error fault ↔ Misnames text fault := by
  constructor
  · intro failed
    cases text with
    | nil =>
        cases failed
        exact .trailing
    | cons first rest =>
        cases numeric : numberForm? first with
        | none =>
            rw [readEscape_of_unnumbered numeric] at failed
            cases failed
        | some form =>
            obtain ⟨rfl, unnamed⟩ := (readEscape_numbered_eq_error_iff numeric).mp failed
            rcases numberForm?_cases numeric with
              ⟨rfl, rfl⟩ | ⟨rfl, rfl⟩ | ⟨rfl, rfl⟩ | ⟨digit, found, rfl⟩
            · exact .twoHex fun named => unnamed ((BeginsNumber.congr accepts_twoHex).mpr named)
            · exact .fourHex fun named => unnamed ((BeginsNumber.congr (accepts_hex _ _)).mpr named)
            · exact .eightHex fun named =>
                unnamed ((BeginsNumber.congr (accepts_hex _ _)).mpr named)
            · have isDigit : IsDigit 8 first digit.toNat :=
                (digit?_eq_some_iff (by decide)).mp found
              refine .octal isDigit fun named => unnamed ?_
              exact (BeginsNumber.congr (accepts_octal digit)).mpr
                ((beginsNumber_cons_iff isDigit).mp named)
  · intro misnames
    cases misnames with
    | trailing => rfl
    | twoHex unnamed =>
        refine (readEscape_numbered_eq_error_iff rfl).mpr ⟨rfl, fun named => unnamed ?_⟩
        exact (BeginsNumber.congr accepts_twoHex).mp named
    | fourHex unnamed | eightHex unnamed =>
        refine (readEscape_numbered_eq_error_iff rfl).mpr ⟨rfl, fun named => unnamed ?_⟩
        exact (BeginsNumber.congr (accepts_hex _ _)).mp named
    | octal isDigit unnamed =>
        have small : (8 : UInt32).toNat ≤ 16 := by decide
        obtain ⟨digit, found, rfl⟩ := exists_digit?_of_isDigit small isDigit
        refine (readEscape_numbered_eq_error_iff (numberForm?_octal found)).mpr
          ⟨rfl, fun named => unnamed ?_⟩
        exact (beginsNumber_cons_iff isDigit).mpr
          ((BeginsNumber.congr (accepts_octal digit)).mp named)

end Escapes

section Tokens

variable {c : Char} {text rest : List Char} {fault : EscapeFault}

theorem Token.read_eq_error_iff :
    Token.read c rest = .error fault ↔ c = '\\' ∧ Misnames rest fault := by
  rw [Token.read]
  by_cases backslash : c = '\\'
  · rw [if_pos backslash, ← readEscape_eq_error_iff]
    cases readEscape rest <;> simp [backslash, Except.map]
  · rw [if_neg backslash]
    by_cases slash : c = '/'
    · simp [slash]
    · by_cases comma : c = ','
      · simp [comma]
      · simp [backslash, slash, comma]

/-- Reading stops at a backslash up to which all is read, and which begins no escape. -/
theorem tokenize_eq_error_iff {malformed : MalformedEscape} :
    tokenize text = .error malformed ↔
      ∃ before after, text = before ++ '\\' :: after ∧
        (∃ tokens, tokenize before = .ok tokens) ∧ malformed.onward = '\\' :: after ∧
        Misnames after malformed.fault := by
  constructor
  · intro failed
    fun_induction tokenize text with
    | case1 => cases failed
    | case2 c rest fault unread =>
        cases failed
        obtain ⟨rfl, misnames⟩ := Token.read_eq_error_iff.mp unread
        exact ⟨[], rest, rfl, ⟨[], tokenize_nil⟩, rfl, misnames⟩
    | case3 c rest token left taken ih =>
        have later : tokenize left = .error malformed := by
          cases onward : tokenize left with
          | ok tokens => simp [onward, Except.map] at failed
          | error other => simpa [onward, Except.map] using failed
        obtain ⟨before, after, rfl, ⟨tokens, read⟩, onward, misnames⟩ := ih later
        obtain ⟨spelling, split, written⟩ := Token.exists_written_of_read taken
        have readLonger := written.spells.append (spells_of_tokenize read)
        exact ⟨spelling ++ before, after, by rw [split, List.append_assoc],
          ⟨_, readLonger.tokenize_eq⟩, onward, misnames⟩
  · rintro ⟨before, after, rfl, ⟨tokens, read⟩, onward, misnames⟩
    have unread := tokenize_cons_of_error (Token.read_eq_error_iff.mpr ⟨rfl, misnames⟩)
    rw [spells_of_tokenize read, unread, ← onward]
    rfl

end Tokens

/-- The expression is read up to a backslash, and what stands after it begins no escape. -/
structure Pattern.Breaks (expr before after : String) (fault : EscapeFault) : Prop where
  split : expr = before ++ "\\" ++ after
  read : ∃ pattern, Pattern.parse before = .ok pattern
  misnames : Misnames after.toList fault

theorem Pattern.parse_eq_error_iff {expr : String} {error : Error} :
    Pattern.parse expr = .error error ↔
      ∃ before after fault, Pattern.Breaks expr before after fault ∧
        error = .malformedEscape expr (utf8 before).length fault.reason := by
  have offset : ∀ before after : List Char, expr.toList = before ++ '\\' :: after →
      byteSize expr.toList - byteSize ('\\' :: after) = (encodeChars before).length := by
    intro before after split
    rw [byteSize, byteSize, split, encodeChars_append, List.length_append, Nat.add_sub_cancel]
  constructor
  · intro failed
    unfold Pattern.parse at failed
    split at failed
    · cases failed
    · rename_i malformed stopped
      cases failed
      obtain ⟨before, after, split, ⟨tokens, read⟩, onward, misnames⟩ :=
        tokenize_eq_error_iff.mp stopped
      have breaks : Pattern.Breaks expr (String.ofList before) (String.ofList after)
          malformed.fault := by
        refine ⟨?_, ⟨_, Pattern.parse_eq_ok_iff.mpr ⟨tokens, ?_, rfl⟩⟩, ?_⟩
        · rw [← String.toList_inj]
          simpa using split
        · rwa [String.toList_ofList]
        · rwa [String.toList_ofList]
      refine ⟨_, _, _, breaks, ?_⟩
      rw [onward, offset before after split, utf8, String.toList_ofList]
  · rintro ⟨before, after, fault, ⟨split, ⟨pattern, read⟩, misnames⟩, rfl⟩
    obtain ⟨tokens, tokenized, _⟩ := Pattern.parse_eq_ok_iff.mp read
    have chars : expr.toList = before.toList ++ '\\' :: after.toList := by simp [split]
    have stopped : tokenize expr.toList = .error ⟨fault, '\\' :: after.toList⟩ :=
      tokenize_eq_error_iff.mpr ⟨_, _, chars, ⟨tokens, tokenized⟩, rfl, misnames⟩
    rw [Pattern.parse, stopped]
    simp only [offset _ _ chars, utf8]

namespace Pattern.Breaks

variable {expr before after earlier onward : String} {fault other : EscapeFault}

theorem charEdge (breaks : Pattern.Breaks expr before after fault) :
    CharEdge expr (utf8 before).length := by
  have split : expr = before ++ ("\\" ++ after) := by rw [breaks.split, String.append_assoc]
  exact charEdge_iff_append.mpr ⟨before, _, split, rfl⟩

theorem getElem?_utf8 (breaks : Pattern.Breaks expr before after fault) :
    (utf8 expr)[(utf8 before).length]? = some 0x5C := by
  have backslash : utf8 "\\" = [0x5C] := by decide
  rw [breaks.split, utf8_append, utf8_append, backslash, List.append_assoc,
    List.getElem?_append_right (Nat.le_refl _), Nat.sub_self]
  rfl

/-- Two faults would be reported at two offsets. -/
theorem length_eq (breaks : Pattern.Breaks expr before after fault)
    (breaksToo : Pattern.Breaks expr earlier onward other) :
    (utf8 earlier).length = (utf8 before).length := by
  have reported := Pattern.parse_eq_error_iff.mpr ⟨_, _, _, breaks, rfl⟩
  rw [Pattern.parse_eq_error_iff.mpr ⟨_, _, _, breaksToo, rfl⟩] at reported
  exact (Error.malformedEscape.inj (Except.error.inj reported)).2.1

end Pattern.Breaks

/-- An expression is refused exactly for a backslash that begins no escape and up to
which all is read, and it is told where that stands in bytes and what is wrong with it.
There is no such backslash before it: where the expression is read up to an earlier one,
that one begins an escape. -/
theorem Pattern.parse_first_malformed (expr : String) :
    (∀ other offset fault,
      Pattern.parse expr = .error (.malformedEscape other offset fault.reason) ↔
        other = expr ∧ ∃ before after, Pattern.Breaks expr before after fault ∧
          offset = (utf8 before).length) ∧
    (∀ error, Pattern.parse expr = .error error →
      ∃ offset fault, error = .malformedEscape expr offset (EscapeFault.reason fault)) ∧
    ∀ before after fault, Pattern.Breaks expr before after fault →
      CharEdge expr (utf8 before).length ∧
      (utf8 expr)[(utf8 before).length]? = some 0x5C ∧
      ∀ earlier onward, expr = earlier ++ "\\" ++ onward →
        (∃ pattern, Pattern.parse earlier = .ok pattern) →
        (utf8 earlier).length < (utf8 before).length →
        ∃ body c, body <+: onward.toList ∧ Names body c := by
  refine ⟨fun other offset fault => ?_, fun error failed => ?_, fun before after fault breaks => ?_⟩
  · rw [Pattern.parse_eq_error_iff]
    constructor
    · rintro ⟨before, after, found, breaks, same⟩
      obtain ⟨rfl, rfl, reasons⟩ := Error.malformedEscape.inj same
      obtain rfl := EscapeFault.reason_injective reasons
      exact ⟨rfl, before, after, breaks, rfl⟩
    · rintro ⟨rfl, before, after, breaks, rfl⟩
      exact ⟨before, after, fault, breaks, rfl⟩
  · obtain ⟨before, after, fault, _, rfl⟩ := Pattern.parse_eq_error_iff.mp failed
    exact ⟨_, fault, rfl⟩
  · refine ⟨breaks.charEdge, breaks.getElem?_utf8, ?_⟩
    intro earlier onward split read shorter
    cases escape : readEscape onward.toList with
    | ok value =>
        obtain ⟨body, whole, names⟩ := readEscape_eq_ok_iff.mp escape
        exact ⟨body, value.1, ⟨_, whole.symm⟩, names⟩
    | error other =>
        have breaksEarlier : Pattern.Breaks expr earlier onward other :=
          ⟨split, read, readEscape_eq_error_iff.mp escape⟩
        exact absurd (breaks.length_eq breaksEarlier) (Nat.ne_of_lt shorter)

/-- An escaped backslash, a character of two bytes and an escape that is well formed
stand before the one that is not. -/
example : Pattern.parse "\\\\é,\\061/\\u00e/" =
    .error (.malformedEscape "\\\\é,\\061/\\u00e/" 10
      "\\u needs four hex digits naming a valid character") := by
  decide +kernel

end WordSubst
