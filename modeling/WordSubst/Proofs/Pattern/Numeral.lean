import Mathlib.Tactic.Ring
import WordSubst.Pattern

namespace WordSubst

def digitChars : List Char :=
  ['0', '1', '2', '3', '4', '5', '6', '7', '8', '9', 'a', 'b', 'c', 'd', 'e', 'f']

/-- The character is a digit of a radix up to sixteen and counts `value`; a letter
may be of either case. -/
def IsDigit (radix : Nat) (c : Char) (value : Nat) : Prop :=
  value < radix ∧ digitChars[value]? = some c.toLower

/-- The characters are digits, the first of which counts most. -/
inductive Numeral (radix : Nat) : (text : List Char) → (value : Nat) → Prop where
  | nil : Numeral radix [] 0
  | cons : IsDigit radix c digit → Numeral radix rest value →
      Numeral radix (c :: rest) (digit * radix ^ rest.length + value)

section Digits

theorem digitValue?_ascii : ∀ code < 128, ∀ value < 16,
    digitValue? (Char.ofNat code) = some (UInt32.ofNat value) ↔
      digitChars[value]? = some (Char.ofNat code).toLower := by
  decide +kernel

theorem digitValue?_of_not_ascii {c : Char} (large : 128 ≤ c.toNat) : digitValue? c = none := by
  have beyond : ∀ ascii : Char, ascii.toNat < 128 → ¬ c ≤ ascii := by
    intro ascii small le
    have ordered : c.toNat ≤ ascii.toNat := le
    omega
  simp [digitValue?, beyond]

theorem toLower_of_not_ascii {c : Char} (large : 128 ≤ c.toNat) : c.toLower = c := by
  have beyond : ¬ (c.val ≥ 'A'.val ∧ c.val ≤ 'Z'.val) := by
    intro inside
    have ordered : c.toNat ≤ 'Z'.toNat := inside.2
    have small : 'Z'.toNat = 90 := rfl
    omega
  exact dif_neg beyond

theorem digitValue?_eq_some_iff {c : Char} {value : UInt32} (small : value.toNat < 16) :
    digitValue? c = some value ↔ digitChars[value.toNat]? = some c.toLower := by
  by_cases ascii : c.toNat < 128
  · have same := digitValue?_ascii c.toNat ascii value.toNat small
    rwa [Char.ofNat_toNat, UInt32.ofNat_toNat] at same
  · have large : 128 ≤ c.toNat := Nat.le_of_not_lt ascii
    rw [digitValue?_of_not_ascii large, toLower_of_not_ascii large]
    have listed : ∀ digit ∈ digitChars, digit.toNat < 128 := by simp [digitChars]
    simp only [reduceCtorEq, false_iff]
    intro found
    exact ascii (listed c (List.mem_of_getElem? found))

theorem digit?_eq_some_iff {radix : UInt32} (small : radix.toNat ≤ 16) {c : Char}
    {value : UInt32} :
    digit? radix c = some value ↔ IsDigit radix.toNat c value.toNat := by
  rw [digit?, Option.filter_eq_some_iff, decide_eq_true_eq, UInt32.lt_iff_toNat_lt, IsDigit,
    and_comm]
  refine and_congr_right fun less => ?_
  exact digitValue?_eq_some_iff (Nat.lt_of_lt_of_le less small)

/-- A digit is read as a word. -/
theorem exists_digit?_of_isDigit {radix : UInt32} (small : radix.toNat ≤ 16) {c : Char}
    {value : Nat} (isDigit : IsDigit radix.toNat c value) :
    ∃ digit, digit? radix c = some digit ∧ digit.toNat = value := by
  have word : (UInt32.ofNat value).toNat = value := by
    refine UInt32.toNat_ofNat_of_lt' (Nat.lt_of_lt_of_le isDigit.1 ?_)
    exact Nat.le_trans small (by decide)
  exact ⟨UInt32.ofNat value, (digit?_eq_some_iff small).mpr (word.symm ▸ isDigit), word⟩

theorem IsDigit.unique {radix digit other : Nat} {c : Char} (isDigit : IsDigit radix c digit)
    (isOther : IsDigit radix c other) : digit = other := by
  have inside := (List.getElem?_eq_some_iff.mp isDigit.2).1
  have nodup : digitChars.Nodup := by decide
  exact (List.getElem?_inj inside nodup).mp (isDigit.2.trans isOther.2.symm)

theorem IsDigit.mem_digitChars {radix digit : Nat} {c : Char} (isDigit : IsDigit radix c digit) :
    c.toLower ∈ digitChars :=
  List.mem_of_getElem? isDigit.2

theorem Numeral.exists_cons {radix value : Nat} {text : List Char}
    (numeral : Numeral radix text value) (nonempty : text ≠ []) :
    ∃ c rest digit number, text = c :: rest ∧ IsDigit radix c digit ∧
      Numeral radix rest number ∧ value = digit * radix ^ rest.length + number := by
  cases numeral with
  | nil => exact absurd rfl nonempty
  | cons isDigit numeral => exact ⟨_, _, _, _, rfl, isDigit, numeral, rfl⟩

end Digits

section Writing

variable {radix value other digit : Nat} {text : List Char} {c : Char}

theorem Numeral.digits (numeral : Numeral radix text value) :
    ∀ c ∈ text, ∃ digit, IsDigit radix c digit := by
  induction numeral with
  | nil => simp
  | cons isDigit _ ih => exact List.forall_mem_cons.mpr ⟨⟨_, isDigit⟩, ih⟩

theorem Numeral.unique (numeral : Numeral radix text value)
    (otherNumeral : Numeral radix text other) : value = other := by
  induction numeral generalizing other with
  | nil =>
      cases otherNumeral
      rfl
  | cons isDigit _ ih =>
      cases otherNumeral with
      | cons isOther rest => rw [isDigit.unique isOther, ih rest]

theorem Numeral.concat (numeral : Numeral radix text value) (isDigit : IsDigit radix c digit) :
    Numeral radix (text ++ [c]) (value * radix + digit) := by
  induction numeral with
  | nil => simpa using Numeral.cons isDigit .nil
  | @cons first higher rest lower isFirst _ ih =>
      have power : (higher * radix ^ rest.length + lower) * radix + digit =
          higher * radix ^ (rest ++ [c]).length + (lower * radix + digit) := by
        rw [List.length_append, List.length_singleton]
        ring
      rw [power]
      exact .cons isFirst ih

theorem isDigit_digitChar (less : digit < radix) (small : radix ≤ 16) :
    IsDigit radix digit.digitChar digit := by
  have listed : ∀ value < 16, digitChars[value]? = some value.digitChar.toLower := by decide
  exact ⟨less, listed digit (by omega)⟩

theorem numeral_toDigits (large : 1 < radix) (small : radix ≤ 16) (value : Nat) :
    Numeral radix (Nat.toDigits radix value) value := by
  induction value using Nat.strongRecOn with
  | ind value ih =>
      by_cases single : value < radix
      · rw [Nat.toDigits_of_lt_base single]
        simpa using Numeral.cons (isDigit_digitChar single small) .nil
      · have enough : radix ≤ value := Nat.le_of_not_lt single
        have higher := ih (value / radix) (Nat.div_lt_self (by omega) large)
        have last := isDigit_digitChar (Nat.mod_lt value (by omega)) small
        have whole := higher.concat last
        rw [Nat.div_add_mod'] at whole
        rw [Nat.toDigits_of_base_le large enough]
        exact whole

theorem toDigits_injective (large : 1 < radix) (small : radix ≤ 16) :
    Function.Injective (Nat.toDigits radix) := by
  intro value other same
  have numeral := numeral_toDigits large small value
  rw [same] at numeral
  exact numeral.unique (numeral_toDigits large small other)

end Writing

section Reading

variable {radix value : UInt32} {count : Nat}

/-- One more digit leaves room for those that follow it. -/
theorem toNat_accumulate {digit : UInt32} (less : digit.toNat < radix.toNat)
    (room : (value.toNat + 1) * radix.toNat ^ (count + 1) ≤ 2 ^ 32) :
    (value * radix + digit).toNat = value.toNat * radix.toNat + digit.toNat ∧
      ((value * radix + digit).toNat + 1) * radix.toNat ^ count ≤ 2 ^ 32 := by
  have next : value.toNat * radix.toNat + digit.toNat + 1 ≤ (value.toNat + 1) * radix.toNat := by
    rw [Nat.add_mul, Nat.one_mul]
    omega
  have positive : 0 < radix.toNat ^ count := Nat.pow_pos (by omega)
  have bound : (value.toNat * radix.toNat + digit.toNat + 1) * radix.toNat ^ count ≤ 2 ^ 32 := by
    refine Nat.le_trans (Nat.mul_le_mul_right _ next) ?_
    rw [Nat.mul_assoc, ← Nat.pow_succ']
    exact room
  have fits : value.toNat * radix.toNat + digit.toNat < 2 ^ 32 := by
    have larger := Nat.le_mul_of_pos_right (value.toNat * radix.toNat + digit.toNat + 1) positive
    omega
  have exact : (value * radix + digit).toNat = value.toNat * radix.toNat + digit.toNat := by
    rw [UInt32.toNat_add, UInt32.toNat_mul, Nat.mod_add_mod, Nat.mod_eq_of_lt fits]
  exact ⟨exact, exact ▸ bound⟩

/-- The reader succeeds exactly on as many digits as it is asked for.  It leaves what
follows them, and its value is theirs after what it was given. -/
theorem readNumeral_eq_some_iff (small : radix.toNat ≤ 16)
    (room : (value.toNat + 1) * radix.toNat ^ count ≤ 2 ^ 32) {text left : List Char}
    {code : UInt32} :
    readNumeral radix count value text = (some code, left) ↔
      ∃ digits number, text = digits ++ left ∧ digits.length = count ∧
        Numeral radix.toNat digits number ∧
        code.toNat = value.toNat * radix.toNat ^ count + number := by
  induction count generalizing value text with
  | zero =>
      simp only [readNumeral, Prod.mk.injEq, Option.some.injEq, List.length_eq_zero_iff]
      constructor
      · rintro ⟨same, unread⟩
        subst same unread
        exact ⟨[], 0, rfl, rfl, .nil, by simp⟩
      · rintro ⟨digits, number, split, nothing, numeral, exact⟩
        subst nothing
        cases numeral
        exact ⟨UInt32.toNat_inj.mp (by simp [exact]), split⟩
  | succ count ih =>
      cases text with
      | nil =>
          simp only [readNumeral, Prod.mk.injEq, reduceCtorEq, false_and, false_iff]
          rintro ⟨digits, number, split, length, _, _⟩
          simp [(List.append_eq_nil_iff.mp split.symm).1] at length
      | cons c rest =>
          cases found : digit? radix c with
          | none =>
              simp only [readNumeral, found, Prod.mk.injEq, reduceCtorEq, false_and, false_iff]
              rintro ⟨digits, number, split, length, numeral, _⟩
              cases numeral with
              | nil => simp at length
              | cons isDigit _ =>
                  obtain ⟨rfl, _⟩ := List.cons_eq_cons.mp split
                  obtain ⟨digit, foundDigit, _⟩ := exists_digit?_of_isDigit small isDigit
                  simp [found] at foundDigit
          | some digit =>
              have isDigit := (digit?_eq_some_iff small).mp found
              obtain ⟨exact, roomNext⟩ := toNat_accumulate isDigit.1 room
              have power : ∀ number, (value.toNat * radix.toNat + digit.toNat) *
                    radix.toNat ^ count + number =
                  value.toNat * radix.toNat ^ (count + 1) +
                    (digit.toNat * radix.toNat ^ count + number) := by
                intro number
                ring
              simp only [readNumeral, found, ih roomNext, exact, power]
              constructor
              · rintro ⟨digits, number, split, length, numeral, reads⟩
                subst split length
                exact ⟨c :: digits, _, rfl, rfl, .cons isDigit numeral, reads⟩
              · rintro ⟨digits, number, split, length, numeral, reads⟩
                cases numeral with
                | nil => simp at length
                | @cons _ _ later number otherDigit numeral =>
                    obtain ⟨rfl, rfl⟩ := List.cons_eq_cons.mp split
                    obtain ⟨other, foundOther, rfl⟩ := exists_digit?_of_isDigit small otherDigit
                    cases found.symm.trans foundOther
                    have lengthRest : later.length = count := Nat.succ.inj length
                    exact ⟨later, number, rfl, lengthRest, numeral, lengthRest ▸ reads⟩

end Reading

end WordSubst
