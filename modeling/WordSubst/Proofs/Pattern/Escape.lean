import WordSubst.Pattern
import WordSubst.Proofs.Pattern.Numeral

namespace WordSubst

/-- The letters that name control characters. -/
def controls : List (Char × Char) :=
  [('a', '\x07'), ('b', '\x08'), ('f', '\x0C'), ('n', '\n'), ('r', '\r'), ('t', '\t'),
    ('v', '\x0B')]

/-- The characters that begin the number of a character. -/
def numberSigns : List Char :=
  ['x', 'u', 'U', '0', '1', '2', '3', '4', '5', '6', '7']

/-- What stands after a backslash names the character. -/
inductive Names : (body : List Char) → (c : Char) → Prop where
  | single : c ∉ numberSigns → Names [c] ((controls.lookup c).getD c)
  | twoHex : digits.length = 2 → Numeral 16 digits c.toNat → c.toNat ≤ 0x7F →
      Names ('x' :: digits) c
  | fourHex : digits.length = 4 → Numeral 16 digits c.toNat → Names ('u' :: digits) c
  | eightHex : digits.length = 8 → Numeral 16 digits c.toNat → Names ('U' :: digits) c
  | octal : digits.length = 3 → Numeral 8 digits c.toNat → c.toNat ≤ 0o177 → Names digits c

section Reading

theorem control?_eq_lookup (c : Char) : control? c = controls.lookup c := by
  simp only [control?, controls, List.lookup_cons, List.lookup_nil]
  repeat' split
  all_goals simp_all

theorem digit?_octal_ascii : ∀ code < 128,
    digit? 8 (Char.ofNat code) = none ↔
      Char.ofNat code ∉ ['0', '1', '2', '3', '4', '5', '6', '7'] := by
  decide +kernel

theorem digit?_octal_eq_none_iff {c : Char} :
    digit? 8 c = none ↔ c ∉ ['0', '1', '2', '3', '4', '5', '6', '7'] := by
  by_cases ascii : c.toNat < 128
  · have same := digit?_octal_ascii c.toNat ascii
    rwa [Char.ofNat_toNat] at same
  · have nothing : digit? 8 c = none := by
      rw [digit?, digitValue?_of_not_ascii (Nat.le_of_not_lt ascii), Option.filter_none]
    have listed : ∀ digit ∈ ['0', '1', '2', '3', '4', '5', '6', '7'], digit.toNat < 128 := by
      simp
    exact iff_of_true nothing fun member => ascii (listed c member)

theorem numberForm?_eq_none_iff {c : Char} : numberForm? c = none ↔ c ∉ numberSigns := by
  have signs : c ∈ numberSigns ↔ c = 'x' ∨ c = 'u' ∨ c = 'U' ∨
      c ∈ ['0', '1', '2', '3', '4', '5', '6', '7'] := by
    simp only [numberSigns, List.mem_cons]
  rw [signs, numberForm?]
  by_cases two : c = 'x'
  · simp [two]
  · by_cases four : c = 'u'
    · simp [four]
    · by_cases eight : c = 'U'
      · simp [eight]
      · rw [if_neg two, if_neg four, if_neg eight, Option.map_eq_none_iff, digit?_octal_eq_none_iff]
        simp only [two, four, eight, false_or]

theorem control?_of_numberForm? {c : Char} {form : NumberForm}
    (numeric : numberForm? c = some form) : control? c = none := by
  have sign : c ∈ numberSigns := by
    refine Classical.byContradiction fun unsigned => ?_
    rw [numberForm?_eq_none_iff.mpr unsigned] at numeric
    cases numeric
  have letters : ∀ sign ∈ numberSigns, control? sign = none := by simp [numberSigns, control?]
  exact letters c sign

/-- The number that a form asks for fits into the words that it is read with. -/
structure NumberForm.Fits (form : NumberForm) : Prop where
  radix : form.radix.toNat ≤ 16
  room : (form.start.toNat + 1) * form.radix.toNat ^ form.count ≤ 2 ^ 32

theorem scalar?_eq_some_iff {code : UInt32} {c : Char} : scalar? code = some c ↔ code = c.val := by
  unfold scalar?
  split
  · rename_i valid
    rw [Option.some.injEq]
    exact ⟨fun same => same ▸ rfl, fun same => Char.ext same⟩
  · rename_i invalid
    simp only [reduceCtorEq, false_iff]
    intro same
    exact invalid (same ▸ c.valid)

theorem NumberForm.read_eq_ok_iff {form : NumberForm} (fits : form.Fits) {text left : List Char}
    {c : Char} :
    form.read text = .ok (c, left) ↔
      ∃ digits number, text = digits ++ left ∧ digits.length = form.count ∧
        Numeral form.radix.toNat digits number ∧
        c.toNat = form.start.toNat * form.radix.toNat ^ form.count + number ∧
        c.toNat ≤ form.limit.toNat := by
  have scalar : form.read text = .ok (c, left) ↔
      readNumeral form.radix form.count form.start text = (some c.val, left) ∧
        c.val ≤ form.limit := by
    unfold NumberForm.read
    rcases readNumeral form.radix form.count form.start text with ⟨_ | code, rest⟩
    · simp
    · have named : ∀ other, (if code ≤ form.limit then scalar? code else none) = some other ↔
          code = other.val ∧ other.val ≤ form.limit := by
        intro other
        rw [Option.ite_none_right_eq_some, scalar?_eq_some_iff, and_comm]
        exact and_congr_right fun same => by rw [same]
      cases found : if code ≤ form.limit then scalar? code else none with
      | none =>
          have unnamed : ¬ (code = c.val ∧ c.val ≤ form.limit) := by
            rw [← named, found]
            simp
          simp only [found, reduceCtorEq, Prod.mk.injEq, Option.some.injEq, false_iff]
          exact fun ⟨⟨same, _⟩, limited⟩ => unnamed ⟨same, limited⟩
      | some other =>
          obtain ⟨rfl, limited⟩ := (named other).mp found
          simp only [found, Except.ok.injEq, Prod.mk.injEq, Option.some.injEq, ← Char.ext_iff]
          exact ⟨fun ⟨same, unread⟩ => ⟨⟨same, unread⟩, same ▸ limited⟩, fun ⟨read, _⟩ => read⟩
  rw [scalar, readNumeral_eq_some_iff fits.radix fits.room, UInt32.le_iff_toNat_le]
  constructor
  · intro ⟨⟨digits, number, split, length, numeral, reads⟩, limited⟩
    exact ⟨digits, number, split, length, numeral, reads, limited⟩
  · intro ⟨digits, number, split, length, numeral, reads, limited⟩
    exact ⟨⟨digits, number, split, length, numeral, reads⟩, limited⟩

theorem numberForm?_cases {first : Char} {form : NumberForm}
    (numeric : numberForm? first = some form) :
    first = 'x' ∧ form = ⟨.twoHex, 16, 2, 0, 0x7F⟩ ∨
      first = 'u' ∧ form = ⟨.fourHex, 16, 4, 0, 0x10FFFF⟩ ∨
      first = 'U' ∧ form = ⟨.eightHex, 16, 8, 0, 0x10FFFF⟩ ∨
      ∃ digit, digit? 8 first = some digit ∧ form = ⟨.octal, 8, 2, digit, 0x7F⟩ := by
  unfold numberForm? at numeric
  by_cases two : first = 'x'
  · rw [if_pos two, Option.some.injEq] at numeric
    exact .inl ⟨two, numeric.symm⟩
  · by_cases four : first = 'u'
    · rw [if_neg two, if_pos four, Option.some.injEq] at numeric
      exact .inr (.inl ⟨four, numeric.symm⟩)
    · by_cases eight : first = 'U'
      · rw [if_neg two, if_neg four, if_pos eight, Option.some.injEq] at numeric
        exact .inr (.inr (.inl ⟨eight, numeric.symm⟩))
      · rw [if_neg two, if_neg four, if_neg eight, Option.map_eq_some_iff] at numeric
        obtain ⟨digit, found, made⟩ := numeric
        exact .inr (.inr (.inr ⟨digit, found, made.symm⟩))

theorem numberForm?_octal {first : Char} {digit : UInt32} (found : digit? 8 first = some digit) :
    numberForm? first = some ⟨.octal, 8, 2, digit, 0x7F⟩ := by
  have apart : ∀ sign, digit? 8 sign = none → first ≠ sign := by
    intro sign nothing same
    rw [same, nothing] at found
    cases found
  rw [numberForm?, if_neg (apart 'x' rfl), if_neg (apart 'u' rfl), if_neg (apart 'U' rfl), found]
  rfl

theorem fits_of_numberForm? {first : Char} {form : NumberForm}
    (numeric : numberForm? first = some form) : form.Fits := by
  rcases numberForm?_cases numeric with ⟨_, rfl⟩ | ⟨_, rfl⟩ | ⟨_, rfl⟩ | ⟨digit, found, rfl⟩
  · exact ⟨by decide, by decide⟩
  · exact ⟨by decide, by decide⟩
  · exact ⟨by decide, by decide⟩
  · have isDigit : IsDigit 8 first digit.toNat := (digit?_eq_some_iff (by decide)).mp found
    have less := isDigit.1
    have small : (8 : UInt32).toNat ≤ 16 := by decide
    have room : (digit.toNat + 1) * 8 ^ 2 ≤ 2 ^ 32 := by omega
    exact ⟨small, room⟩

theorem readEscape_of_unnumbered {first : Char} (unnumbered : numberForm? first = none)
    (rest : List Char) :
    readEscape (first :: rest) = .ok ((controls.lookup first).getD first, rest) := by
  rw [← control?_eq_lookup]
  rw [readEscape, unnumbered]
  cases control? first <;> rfl

theorem readEscape_of_numbered {first : Char} {form : NumberForm}
    (numeric : numberForm? first = some form) (rest : List Char) :
    readEscape (first :: rest) = form.read rest := by
  simp only [readEscape, control?_of_numberForm? numeric, numeric]

theorem readEscape_number {first c : Char} {form : NumberForm} {digits : List Char} {number : Nat}
    (numeric : numberForm? first = some form) (length : digits.length = form.count)
    (numeral : Numeral form.radix.toNat digits number)
    (named : c.toNat = form.start.toNat * form.radix.toNat ^ form.count + number)
    (limited : c.toNat ≤ form.limit.toNat) (left : List Char) :
    readEscape (first :: digits ++ left) = .ok (c, left) := by
  rw [List.cons_append, readEscape_of_numbered numeric,
    NumberForm.read_eq_ok_iff (fits_of_numberForm? numeric)]
  exact ⟨digits, number, rfl, length, numeral, named, limited⟩

theorem toNat_le_limit (c : Char) : c.toNat ≤ 0x10FFFF := by
  rcases c.valid with low | ⟨_, high⟩
  · exact Nat.le_trans (Nat.le_of_lt low) (by decide)
  · exact Nat.le_of_lt_succ high

/-- Whatever follows it, an escape is read as the character that it names. -/
theorem Names.readEscape_append {body : List Char} {c : Char} (names : Names body c)
    (left : List Char) : readEscape (body ++ left) = .ok (c, left) := by
  cases names with
  | @single first unsigned =>
      exact readEscape_of_unnumbered (numberForm?_eq_none_iff.mpr unsigned) left
  | @twoHex digits _ length numeral limited =>
      have numeric : numberForm? 'x' = some ⟨.twoHex, 16, 2, 0, 0x7F⟩ := rfl
      exact readEscape_number numeric length numeral (by simp) limited left
  | @fourHex digits _ length numeral =>
      have numeric : numberForm? 'u' = some ⟨.fourHex, 16, 4, 0, 0x10FFFF⟩ := rfl
      exact readEscape_number numeric length numeral (by simp) (toNat_le_limit c) left
  | @eightHex digits _ length numeral =>
      have numeric : numberForm? 'U' = some ⟨.eightHex, 16, 8, 0, 0x10FFFF⟩ := rfl
      exact readEscape_number numeric length numeral (by simp) (toNat_le_limit c) left
  | octal length numeral limited =>
      have nonempty : body ≠ [] := List.ne_nil_of_length_eq_add_one length
      obtain ⟨first, digits, value, number, rfl, isDigit, later, named⟩ :=
        numeral.exists_cons nonempty
      have lengthLater : digits.length = 2 := Nat.succ.inj length
      have small : (8 : UInt32).toNat ≤ 16 := by decide
      obtain ⟨digit, found, rfl⟩ := exists_digit?_of_isDigit small isDigit
      exact readEscape_number (numberForm?_octal found) lengthLater later (lengthLater ▸ named)
        limited left

theorem exists_names_of_readEscape {text left : List Char} {c : Char}
    (read : readEscape text = .ok (c, left)) : ∃ body, text = body ++ left ∧ Names body c := by
  cases text with
  | nil => cases read
  | cons first rest =>
      cases numeric : numberForm? first with
      | none =>
          rw [readEscape_of_unnumbered numeric, Except.ok.injEq, Prod.mk.injEq] at read
          obtain ⟨rfl, rfl⟩ := read
          exact ⟨[first], rfl, .single (numberForm?_eq_none_iff.mp numeric)⟩
      | some form =>
          rw [readEscape_of_numbered numeric,
            NumberForm.read_eq_ok_iff (fits_of_numberForm? numeric)] at read
          obtain ⟨digits, number, rfl, length, numeral, named, limited⟩ := read
          refine ⟨first :: digits, rfl, ?_⟩
          rcases numberForm?_cases numeric with
            ⟨rfl, rfl⟩ | ⟨rfl, rfl⟩ | ⟨rfl, rfl⟩ | ⟨digit, found, rfl⟩
          · obtain rfl : number = c.toNat := by simpa using named.symm
            exact .twoHex length numeral limited
          · obtain rfl : number = c.toNat := by simpa using named.symm
            exact .fourHex length numeral
          · obtain rfl : number = c.toNat := by simpa using named.symm
            exact .eightHex length numeral
          · have isDigit : IsDigit 8 first digit.toNat := (digit?_eq_some_iff (by decide)).mp found
            have whole : Numeral 8 (first :: digits) c.toNat := by
              rw [named, ← length]
              exact .cons isDigit numeral
            have lengthWhole : (first :: digits).length = 3 := congrArg Nat.succ length
            exact .octal lengthWhole whole limited

theorem readEscape_eq_ok_iff {text left : List Char} {c : Char} :
    readEscape text = .ok (c, left) ↔ ∃ body, text = body ++ left ∧ Names body c := by
  refine ⟨exists_names_of_readEscape, fun split => ?_⟩
  obtain ⟨body, rfl, names⟩ := split
  exact names.readEscape_append left

end Reading

end WordSubst
