import WordSubst.Proofs.Pattern.Malformed

namespace WordSubst

/-- Two lists, one after the other, with the last element of the first and the first
of the second joined into one. -/
def fuse (join : α → α → α) : (first second : List α) → List α
  | [], second => second
  | [last], next :: rest => join last next :: rest
  | a :: first, second => a :: fuse join first second

def Position.fuse (first second : Position) : Position :=
  ⟨WordSubst.fuse (· ++ ·) first.branches second.branches⟩

/-- The last position of the one and the first of the other become one position, and so
do the branches that meet in it. -/
def Pattern.fuse (first second : Pattern) : Pattern :=
  ⟨WordSubst.fuse Position.fuse first.positions second.positions⟩

def Position.append (first second : Position) : Position :=
  ⟨first.branches ++ second.branches⟩

section Fuse

variable {join : α → α → α}

@[simp] theorem fuse_concat_cons (first : List α) (last next : α) (rest : List α) :
    fuse join (first ++ [last]) (next :: rest) = first ++ join last next :: rest := by
  induction first with
  | nil => rfl
  | cons a first ih =>
      cases first with
      | nil => rfl
      | cons b first => exact congrArg (a :: ·) ih

@[simp] theorem fuse_nil (join : α → α → α) (first : List α) : fuse join first [] = first := by
  induction first with
  | nil => rfl
  | cons a first ih =>
      cases first with
      | nil => rfl
      | cons b first => exact congrArg (a :: ·) ih

theorem map_fuse {other : β → β → β} {f : α → β}
    (commutes : ∀ a b, f (join a b) = other (f a) (f b)) (first second : List α) :
    (fuse join first second).map f = fuse other (first.map f) (second.map f) := by
  fun_induction fuse join first second with
  | case1 second => rfl
  | case2 last next rest => simp [fuse, commutes]
  | case3 a first second unlike ih =>
      rw [List.map_cons, ih, List.map_cons]
      cases first with
      | nil =>
          cases second with
          | nil => rfl
          | cons next rest => exact absurd rfl (unlike next rest rfl)
      | cons b first => rfl

/-- A list and what follows it are split as a whole but for the parts that meet. -/
theorem splitOn_append [DecidableEq α] (a : α) (first second : List α) :
    (first ++ second).splitOn a = fuse (· ++ ·) (first.splitOn a) (second.splitOn a) := by
  obtain ⟨next, later, split⟩ := List.exists_cons_of_ne_nil (List.splitOn_ne_nil a second)
  induction first with
  | nil => simp [split, fuse]
  | cons b first ih =>
      obtain ⟨part, parts, firstSplit⟩ := List.exists_cons_of_ne_nil (List.splitOn_ne_nil a first)
      rw [List.cons_append, List.splitOn_cons_eq_if_modifyHead, List.splitOn_cons_eq_if_modifyHead,
        ih, firstSplit, split]
      by_cases separates : (b == a) = true
      · rw [if_pos separates, if_pos separates]
        rfl
      · rw [if_neg separates, if_neg separates]
        cases parts <;> rfl

theorem fuse_modifyHead {first : List α} (nonempty : first ≠ []) (f : α → α) (second : List α) :
    fuse join first (second.modifyHead f) =
      fuse (fun last next => join last (f next)) first second := by
  obtain ⟨earlier, last, rfl⟩ : ∃ earlier last, first = earlier ++ [last] :=
    ⟨_, _, (List.dropLast_concat_getLast nonempty).symm⟩
  cases second with
  | nil => rw [List.modifyHead_nil, fuse_nil, fuse_nil]
  | cons next rest => rw [List.modifyHead_cons, fuse_concat_cons, fuse_concat_cons]

end Fuse

section Tokens

theorem branchOfTokens_append (tokens later : List Token) :
    branchOfTokens (tokens ++ later) = branchOfTokens tokens ++ branchOfTokens later := by
  simp [branchOfTokens]

theorem Position.ofTokens_append (tokens later : List Token) :
    Position.ofTokens (tokens ++ later) =
      (Position.ofTokens tokens).fuse (Position.ofTokens later) := by
  simp only [Position.ofTokens, Position.fuse, splitOn_append, map_fuse branchOfTokens_append]

theorem Pattern.ofTokens_append (tokens later : List Token) :
    Pattern.ofTokens (tokens ++ later) = (Pattern.ofTokens tokens).fuse (.ofTokens later) := by
  simp only [Pattern.ofTokens, Pattern.fuse, splitOn_append, map_fuse Position.ofTokens_append]

theorem Pattern.positions_ofTokens_slash (tokens later : List Token) :
    (Pattern.ofTokens (tokens ++ .slash :: later)).positions =
      (Pattern.ofTokens tokens).positions ++ (Pattern.ofTokens later).positions := by
  simp only [Pattern.ofTokens, List.splitOn_append_cons_self, List.map_append]

theorem Position.ofTokens_comma (tokens later : List Token) :
    Position.ofTokens (tokens ++ .comma :: later) =
      (Position.ofTokens tokens).append (Position.ofTokens later) := by
  simp only [Position.ofTokens, Position.append, List.splitOn_append_cons_self, List.map_append]

theorem Pattern.positions_ofTokens_comma (tokens later : List Token) :
    (Pattern.ofTokens (tokens ++ .comma :: later)).positions =
      WordSubst.fuse Position.append (Pattern.ofTokens tokens).positions
        (Pattern.ofTokens later).positions := by
  have head : (Token.comma :: later).splitOn .slash =
      (later.splitOn .slash).modifyHead (.comma :: ·) := by
    rw [List.splitOn_cons_eq_if_modifyHead, if_neg (by decide)]
  simp only [Pattern.ofTokens, splitOn_append, head,
    fuse_modifyHead (List.splitOn_ne_nil _ tokens), map_fuse Position.ofTokens_comma]

end Tokens

/-- Between two texts that are read, tokens may be spelled in any way. -/
theorem Pattern.parse_append_spelled {first between second : String}
    {tokens betweenTokens later : List Token} (read : tokenize first.toList = .ok tokens)
    (spells : Spells between.toList betweenTokens) (readNext : tokenize second.toList = .ok later) :
    Pattern.parse (first ++ between ++ second) =
      .ok (.ofTokens (tokens ++ betweenTokens ++ later)) := by
  have whole := ((spells_of_tokenize read).append spells).append (spells_of_tokenize readNext)
  rw [Pattern.parse, String.toList_append, String.toList_append, whole.tokenize_eq]

theorem Pattern.parse_append_of_ok {first second : String} {pattern next : Pattern}
    (read : Pattern.parse first = .ok pattern) (readNext : Pattern.parse second = .ok next) :
    Pattern.parse (first ++ second) = .ok (pattern.fuse next) := by
  obtain ⟨tokens, tokenized, rfl⟩ := Pattern.parse_eq_ok_iff.mp read
  obtain ⟨later, tokenizedNext, rfl⟩ := Pattern.parse_eq_ok_iff.mp readNext
  have whole : Pattern.parse (first ++ "" ++ second) = .ok (.ofTokens (tokens ++ [] ++ later)) :=
    Pattern.parse_append_spelled tokenized Spells.nil tokenizedNext
  rwa [String.append_empty, List.append_nil, Pattern.ofTokens_append] at whole

/-- What breaks the second of two expressions breaks both together, so many bytes later as
the first has. -/
theorem Pattern.Breaks.append {first second before after : String} {pattern : Pattern}
    {fault : EscapeFault} (read : Pattern.parse first = .ok pattern)
    (breaks : Pattern.Breaks second before after fault) :
    Pattern.Breaks (first ++ second) (first ++ before) after fault := by
  obtain ⟨next, readNext⟩ := breaks.read
  have split : first ++ second = first ++ before ++ "\\" ++ after := by
    rw [breaks.split, String.append_assoc, String.append_assoc, String.append_assoc]
  exact ⟨split, ⟨_, Pattern.parse_append_of_ok read readNext⟩, breaks.misnames⟩

/-- Once an expression is read, what follows it is read as if it stood alone.  The two
patterns are fused where they meet; a comma between the expressions keeps the branches
apart that meet there, and a slash the positions.  A malformed escape in the second is
reported for the whole, at the offset that it has there. -/
theorem Pattern.parse_append {first : String} {pattern : Pattern}
    (read : Pattern.parse first = .ok pattern) (second : String) :
    (∀ next, Pattern.parse second = .ok next →
      Pattern.parse (first ++ second) = .ok (pattern.fuse next) ∧
      Pattern.parse (first ++ "," ++ second) =
        .ok ⟨WordSubst.fuse Position.append pattern.positions next.positions⟩ ∧
      Pattern.parse (first ++ "/" ++ second) = .ok ⟨pattern.positions ++ next.positions⟩) ∧
    ∀ error, Pattern.parse second = .error error →
      ∃ offset reason, error = .malformedEscape second offset reason ∧
        Pattern.parse (first ++ second) =
          .error (.malformedEscape (first ++ second) (offset + (utf8 first).length) reason) := by
  constructor
  · intro next readNext
    refine ⟨Pattern.parse_append_of_ok read readNext, ?_⟩
    obtain ⟨tokens, tokenized, rfl⟩ := Pattern.parse_eq_ok_iff.mp read
    obtain ⟨later, tokenizedNext, rfl⟩ := Pattern.parse_eq_ok_iff.mp readNext
    have comma : Pattern.parse (first ++ "," ++ second) =
        .ok (.ofTokens (tokens ++ [.comma] ++ later)) :=
      Pattern.parse_append_spelled tokenized Spells.comma tokenizedNext
    have slash : Pattern.parse (first ++ "/" ++ second) =
        .ok (.ofTokens (tokens ++ [.slash] ++ later)) :=
      Pattern.parse_append_spelled tokenized Spells.slash tokenizedNext
    rw [List.append_assoc] at comma slash
    rw [comma, slash, ← Pattern.positions_ofTokens_comma, ← Pattern.positions_ofTokens_slash]
    exact ⟨rfl, rfl⟩
  · intro error failed
    obtain ⟨before, after, fault, breaks, rfl⟩ := Pattern.parse_eq_error_iff.mp failed
    have breaksLater := breaks.append read
    refine ⟨_, _, rfl, Pattern.parse_eq_error_iff.mpr ⟨_, _, _, breaksLater, ?_⟩⟩
    rw [utf8_append, List.length_append, Nat.add_comm]

/-- An escape of three digits ends where the second expression begins with a digit, and
the second may also be broken. -/
theorem Pattern.parse_append_after_octal :
    Pattern.parse "a/é,\\061" = .ok ⟨[⟨["a"]⟩, ⟨["é", "1"]⟩]⟩ ∧
      Pattern.parse ("a/é,\\061" ++ "2/b,") = .ok ⟨[⟨["a"]⟩, ⟨["é", "12"]⟩, ⟨["b", ""]⟩]⟩ ∧
      Pattern.parse ("a/é,\\061" ++ "," ++ "2/b,") =
        .ok ⟨[⟨["a"]⟩, ⟨["é", "1", "2"]⟩, ⟨["b", ""]⟩]⟩ ∧
      Pattern.parse ("a/é,\\061" ++ "/" ++ "2/b,") =
        .ok ⟨[⟨["a"]⟩, ⟨["é", "1"]⟩, ⟨["2"]⟩, ⟨["b", ""]⟩]⟩ ∧
      Pattern.parse ("a/é,\\061" ++ "2\\x4") = .error (.malformedEscape
        ("a/é,\\061" ++ "2\\x4") 10 "\\x needs two hex digits no greater than 7f") := by
  have read : Pattern.parse "a/é,\\061" = .ok ⟨[⟨["a"]⟩, ⟨["é", "1"]⟩]⟩ := by decide +kernel
  have readNext : Pattern.parse "2/b," = .ok ⟨[⟨["2"]⟩, ⟨["b", ""]⟩]⟩ := by decide +kernel
  have failed : Pattern.parse "2\\x4" = .error (.malformedEscape "2\\x4" 1
      "\\x needs two hex digits no greater than 7f") := by
    decide +kernel
  obtain ⟨joined, branches, positions⟩ := (Pattern.parse_append read _).1 _ readNext
  obtain ⟨offset, reason, same, broken⟩ := (Pattern.parse_append read _).2 _ failed
  cases same
  exact ⟨read, joined, branches, positions, broken⟩

end WordSubst
