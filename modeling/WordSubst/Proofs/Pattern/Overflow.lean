import WordSubst.Pattern
import WordSubst.Proofs.Pattern.Escape

namespace WordSubst

def Digits (radix : Nat) (text : List Char) : Prop :=
  ∀ c ∈ text, ∃ digit, IsDigit radix c digit

/-- The text is at its end or goes on with a character that is no digit. -/
def Undigited (radix : Nat) (text : List Char) : Prop :=
  ∀ c ∈ text.head?, ¬ ∃ digit, IsDigit radix c digit

/-- The numbers that the reader computes before they are put into words, one for each
digit that it takes. -/
def readSums (radix : UInt32) : (count : Nat) → (value : UInt32) → List Char → List Nat
  | 0, _, _ => []
  | _ + 1, _, [] => []
  | count + 1, value, c :: rest =>
    match digit? radix c with
    | some digit =>
      (value.toNat * radix.toNat + digit.toNat) ::
        readSums radix count (value * radix + digit) rest
    | none => []

/-- Reading the expression computes the number, in its first escape or, if it gets that
far, after its first token. -/
inductive Pattern.Computes : (expr : List Char) → (number : Nat) → Prop where
  | here : numberForm? first = some form →
      number ∈ readSums form.radix form.count form.start digits →
      Computes ('\\' :: first :: digits) number
  | later : Token.read c rest = .ok (token, left) → Computes left number →
      Computes (c :: rest) number

section Reading

variable {radix value : UInt32} {count : Nat} {digits text left : List Char}

theorem digit?_eq_none_of_not_isDigit (small : radix.toNat ≤ 16) {c : Char}
    (nondigit : ¬ ∃ digit, IsDigit radix.toNat c digit) : digit? radix c = none := by
  cases found : digit? radix c with
  | none => rfl
  | some digit => exact absurd ⟨_, (digit?_eq_some_iff small).mp found⟩ nondigit

/-- A text has as many digits at its beginning as are asked for, or else stops at the first
character that is none. -/
theorem exists_digits_append (radix count : Nat) (text : List Char) :
    ∃ digits left, text = digits ++ left ∧ Digits radix digits ∧ digits.length ≤ count ∧
      (digits.length < count → Undigited radix left) := by
  induction count generalizing text with
  | zero => exact ⟨[], text, rfl, nofun, Nat.le_refl _, nofun⟩
  | succ count ih =>
      cases text with
      | nil => exact ⟨[], [], rfl, nofun, Nat.zero_le _, fun _ => nofun⟩
      | cons c rest =>
          by_cases isDigit : ∃ digit, IsDigit radix c digit
          · obtain ⟨digits, left, split, digital, short, stopped⟩ := ih rest
            exact ⟨c :: digits, left, by rw [split]; rfl,
              List.forall_mem_cons.mpr ⟨isDigit, digital⟩, Nat.succ_le_succ short,
              fun less => stopped (Nat.lt_of_succ_lt_succ less)⟩
          · have stopped : Undigited radix (c :: rest) := by
              simpa [Undigited] using isDigit
            exact ⟨[], c :: rest, rfl, nofun, Nat.zero_le _, fun _ => stopped⟩

/-- Reading goes on after the digits with a word that they have led to. -/
theorem exists_readNumeral_append (small : radix.toNat ≤ 16)
    (digital : Digits radix.toNat digits) (count : Nat) (value : UInt32) (left : List Char) :
    ∃ word, readNumeral radix (digits.length + count) value (digits ++ left) =
      readNumeral radix count word left := by
  induction digits generalizing value with
  | nil => exact ⟨value, by rw [List.length_nil, Nat.zero_add]; rfl⟩
  | cons c rest ih =>
      obtain ⟨⟨_, isDigit⟩, later⟩ := List.forall_mem_cons.mp digital
      obtain ⟨digit, found, _⟩ := exists_digit?_of_isDigit small isDigit
      obtain ⟨word, reads⟩ := ih later (value * radix + digit)
      have step : readNumeral radix ((c :: rest).length + count) value (c :: rest ++ left) =
          readNumeral radix (rest.length + count) (value * radix + digit) (rest ++ left) := by
        rw [List.length_cons, Nat.add_right_comm, List.cons_append, readNumeral, found]
      exact ⟨word, step.trans reads⟩

theorem readNumeral_of_undigited (small : radix.toNat ≤ 16)
    (undigited : Undigited radix.toNat left) (count : Nat) (value : UInt32) :
    readNumeral radix (count + 1) value left = (none, left) := by
  cases left with
  | nil => rfl
  | cons c rest =>
      have nondigit := digit?_eq_none_of_not_isDigit small (undigited c rfl)
      rw [readNumeral, nondigit]

theorem readNumeral_of_short (small : radix.toNat ≤ 16) (digital : Digits radix.toNat digits)
    (short : digits.length < count) (undigited : Undigited radix.toNat left) :
    readNumeral radix count value (digits ++ left) = (none, left) := by
  obtain ⟨more, rfl⟩ := Nat.exists_eq_add_of_lt short
  obtain ⟨word, reads⟩ := exists_readNumeral_append small digital (more + 1) value left
  rw [Nat.add_assoc, reads, readNumeral_of_undigited small undigited]

theorem exists_readNumeral_of_digits (small : radix.toNat ≤ 16)
    (digital : Digits radix.toNat digits) (enough : digits.length = count) :
    ∃ code, readNumeral radix count value (digits ++ left) = (some code, left) := by
  subst enough
  exact exists_readNumeral_append small digital 0 value left

/-- A value is returned exactly if so many digits are there. -/
theorem exists_readNumeral_iff (small : radix.toNat ≤ 16) :
    (∃ code left, readNumeral radix count value text = (some code, left)) ↔
      ∃ digits, digits <+: text ∧ digits.length = count ∧ Digits radix.toNat digits := by
  constructor
  · intro ⟨code, left, reads⟩
    obtain ⟨digits, rest, rfl, digital, short, stopped⟩ :=
      exists_digits_append radix.toNat count text
    rcases Nat.lt_or_eq_of_le short with less | enough
    · cases reads.symm.trans (readNumeral_of_short small digital less (stopped less))
    · exact ⟨digits, List.prefix_append _ _, enough, digital⟩
  · intro ⟨digits, ⟨left, split⟩, enough, digital⟩
    obtain ⟨code, reads⟩ := exists_readNumeral_of_digits small digital enough
    exact ⟨code, left, split ▸ reads⟩

/-- Otherwise the digits are gone, and what is left begins with what is no digit. -/
theorem readNumeral_eq_none_iff (small : radix.toNat ≤ 16) :
    readNumeral radix count value text = (none, left) ↔
      ∃ digits, text = digits ++ left ∧ digits.length < count ∧ Digits radix.toNat digits ∧
        Undigited radix.toNat left := by
  constructor
  · intro reads
    obtain ⟨digits, rest, rfl, digital, short, stopped⟩ :=
      exists_digits_append radix.toNat count text
    rcases Nat.lt_or_eq_of_le short with less | enough
    · cases reads.symm.trans (readNumeral_of_short small digital less (stopped less))
      exact ⟨digits, rfl, less, digital, stopped less⟩
    · obtain ⟨code, readsCode⟩ := exists_readNumeral_of_digits small digital enough
      cases reads.symm.trans readsCode
  · intro ⟨digits, split, less, digital, undigited⟩
    rw [split]
    exact readNumeral_of_short small digital less undigited

end Reading

/-- With room for the digits that may come, every number on the way fits into a word. -/
theorem readSums_lt {radix value : UInt32} {count : Nat} {text : List Char}
    (small : radix.toNat ≤ 16) (room : (value.toNat + 1) * radix.toNat ^ count ≤ 2 ^ 32) :
    ∀ number ∈ readSums radix count value text, number < 2 ^ 32 := by
  induction count generalizing value text with
  | zero => exact nofun
  | succ count ih =>
      cases text with
      | nil => exact nofun
      | cons c rest =>
          cases found : digit? radix c with
          | none =>
              rw [readSums, found]
              exact nofun
          | some digit =>
              have less := ((digit?_eq_some_iff small).mp found).1
              obtain ⟨sum, roomNext⟩ := toNat_accumulate less room
              rw [readSums, found]
              exact List.forall_mem_cons.mpr ⟨sum ▸ UInt32.toNat_lt _, ih roomNext⟩

theorem Pattern.Computes.lt {expr : List Char} {number : Nat}
    (computes : Pattern.Computes expr number) : number < 2 ^ 32 := by
  induction computes with
  | here numeric listed =>
      have fits := fits_of_numberForm? numeric
      exact readSums_lt fits.radix fits.room _ listed
  | later _ _ ih => exact ih

/-- Where the digits that may come have room in a word, the reader returns a value exactly
if they are all there, and the value is their number after what it was given; if not, it
stops at the first character that is no digit.  Nothing it computes reaches `2 ^ 32`.
Every form of an escape leaves that room, so no expression leads to a number that large;
the form of eight digits needs all of it. -/
theorem readNumeral_exact {radix value : UInt32} {count : Nat} (small : radix.toNat ≤ 16)
    (room : (value.toNat + 1) * radix.toNat ^ count ≤ 2 ^ 32) (text : List Char) :
    ((∃ code left, readNumeral radix count value text = (some code, left)) ↔
        ∃ digits, digits <+: text ∧ digits.length = count ∧ Digits radix.toNat digits) ∧
      (∀ code left, readNumeral radix count value text = (some code, left) ↔
        ∃ digits number, text = digits ++ left ∧ digits.length = count ∧
          Numeral radix.toNat digits number ∧
          code.toNat = value.toNat * radix.toNat ^ count + number) ∧
      (∀ left, readNumeral radix count value text = (none, left) ↔
        ∃ digits, text = digits ++ left ∧ digits.length < count ∧ Digits radix.toNat digits ∧
          Undigited radix.toNat left) ∧
      (∀ number ∈ readSums radix count value text, number < 2 ^ 32) ∧
      (∀ first form, numberForm? first = some form → form.Fits) ∧
      (∀ expr number, Pattern.Computes expr number → number < 2 ^ 32) ∧
      ((numberForm? 'U').map fun form =>
        (form.start.toNat + 1) * form.radix.toNat ^ form.count) = some (2 ^ 32) ∧
      Pattern.Computes "\\Uffffffff".toList (2 ^ 32 - 1) := by
  have full : Pattern.Computes ['\\', 'U', 'f', 'f', 'f', 'f', 'f', 'f', 'f', 'f'] (2 ^ 32 - 1) :=
    .here rfl (by decide +kernel)
  exact ⟨exists_readNumeral_iff small, fun _ _ => readNumeral_eq_some_iff small room,
    fun _ => readNumeral_eq_none_iff small, readSums_lt small room,
    fun _ _ => fits_of_numberForm?, fun _ _ => Pattern.Computes.lt, by decide, full⟩

/-- Eight digits of which the last is missing, and all of them with one to spare. -/
theorem readNumeral_exact_eight_digits :
    (16 : UInt32).toNat ≤ 16 ∧
      ((0 : UInt32).toNat + 1) * (16 : UInt32).toNat ^ 8 ≤ 2 ^ 32 ∧
      readNumeral 16 8 0 "fffffffg".toList = (none, ['g']) ∧
      (¬ ∃ digits, digits <+: "fffffffg".toList ∧ digits.length = 8 ∧
        Digits (16 : UInt32).toNat digits) ∧
      readNumeral 16 8 0 "ffffffff9".toList = (some 0xFFFFFFFF, ['9']) ∧
      (∀ number ∈ readSums 16 8 0 "ffffffff9".toList, number < 2 ^ 32) := by
  have small : (16 : UInt32).toNat ≤ 16 := by decide
  have room : ((0 : UInt32).toNat + 1) * (16 : UInt32).toNat ^ 8 ≤ 2 ^ 32 := by decide
  have stops : readNumeral 16 8 0 "fffffffg".toList = (none, ['g']) := by decide +kernel
  have reads : readNumeral 16 8 0 "ffffffff9".toList = (some 0xFFFFFFFF, ['9']) := by
    decide +kernel
  have missing : ¬ ∃ digits, digits <+: "fffffffg".toList ∧ digits.length = 8 ∧
      Digits (16 : UInt32).toNat digits := by
    intro all
    obtain ⟨_, _, readsAll⟩ := (readNumeral_exact small room "fffffffg".toList).1.mpr all
    cases stops.symm.trans readsAll
  obtain ⟨_, _, _, bound, _⟩ := readNumeral_exact small room "ffffffff9".toList
  exact ⟨small, room, stops, missing, reads, bound⟩

end WordSubst
