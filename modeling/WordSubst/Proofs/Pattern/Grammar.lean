import WordSubst.Proofs.Pattern.Escape
import WordSubst.Proofs.Pattern.RoundTrip

namespace WordSubst

inductive Token.Written : (text : List Char) → (token : Token) → Prop where
  | slash : Token.Written ['/'] .slash
  | comma : Token.Written [','] .comma
  | plain : c ∉ ['\\', '/', ','] → Token.Written [c] (.char c)
  | escape : Names body c → Token.Written ('\\' :: body) (.char c)

/-- The text is written token by token. -/
inductive Written : (text : List Char) → (tokens : List Token) → Prop where
  | nil : Written [] []
  | cons : token.Written text → Written rest tokens → Written (text ++ rest) (token :: tokens)

section Tokens

variable {text : List Char} {tokens : List Token} {token : Token}

theorem Token.Written.spells (written : token.Written text) : Spells text [token] := by
  cases written with
  | slash => exact Spells.slash
  | comma => exact Spells.comma
  | plain apart => exact Spells.plain apart
  | escape names =>
      refine Spells.of_read fun rest => ?_
      rw [Token.read, if_pos rfl, names.readEscape_append]
      rfl

theorem Written.spells (written : Written text tokens) : Spells text tokens := by
  induction written with
  | nil => exact Spells.nil
  | cons first _ ih => exact first.spells.append ih

theorem Token.exists_written_of_read {c : Char} {rest left : List Char}
    (read : Token.read c rest = .ok (token, left)) :
    ∃ text, c :: rest = text ++ left ∧ token.Written text := by
  unfold Token.read at read
  by_cases backslash : c = '\\'
  · rw [if_pos backslash] at read
    cases escape : readEscape rest with
    | error fault => simp [escape, Except.map] at read
    | ok value =>
        obtain ⟨c, left⟩ := value
        simp only [escape, Except.map, Except.ok.injEq, Prod.mk.injEq] at read
        obtain ⟨rfl, rfl⟩ := read
        obtain ⟨body, split, names⟩ := readEscape_eq_ok_iff.mp escape
        exact ⟨'\\' :: body, by rw [backslash, split]; rfl, .escape names⟩
  · by_cases slash : c = '/'
    · rw [if_neg backslash, if_pos slash] at read
      cases read
      exact ⟨['/'], by rw [slash]; rfl, .slash⟩
    · by_cases comma : c = ','
      · rw [if_neg backslash, if_neg slash, if_pos comma] at read
        cases read
        exact ⟨[','], by rw [comma]; rfl, .comma⟩
      · rw [if_neg backslash, if_neg slash, if_neg comma] at read
        cases read
        exact ⟨[c], rfl, .plain (by simp [backslash, slash, comma])⟩

theorem written_of_tokenize (read : tokenize text = .ok tokens) : Written text tokens := by
  fun_induction tokenize text generalizing tokens with
  | case1 =>
      cases read
      exact .nil
  | case2 c rest fault failed => cases read
  | case3 c rest token left taken ih =>
      obtain ⟨spelling, split, written⟩ := Token.exists_written_of_read taken
      cases onward : tokenize left with
      | error malformed => simp [onward, Except.map] at read
      | ok later =>
          simp only [onward, Except.map, Except.ok.injEq] at read
          subst read
          rw [split]
          exact .cons written (ih onward)

theorem tokenize_eq_ok_iff : tokenize text = .ok tokens ↔ Written text tokens :=
  ⟨written_of_tokenize, fun written => written.spells.tokenize_eq⟩

/-- What is read to its end is read alike before any other text. -/
theorem spells_of_tokenize (read : tokenize text = .ok tokens) : Spells text tokens :=
  (written_of_tokenize read).spells

end Tokens

section Split

variable [DecidableEq α] {a : α} {part list : List α}

theorem mem_splitOn_cons {first : α} (listed : part ∈ (first :: list).splitOn a) :
    part = [] ∨ part ∈ list.splitOn a ∨
      first ≠ a ∧ ∃ rest ∈ list.splitOn a, part = first :: rest := by
  rw [List.splitOn_cons_eq_if_modifyHead] at listed
  by_cases separates : first = a
  · rw [if_pos (by simpa using separates)] at listed
    exact (List.mem_cons.mp listed).imp_right .inl
  · rw [if_neg (by simpa using separates)] at listed
    cases parts : list.splitOn a with
    | nil => exact absurd parts (List.splitOn_ne_nil a list)
    | cons head rest =>
        rw [parts, List.modifyHead_cons] at listed
        rcases List.mem_cons.mp listed with rfl | later
        · exact .inr (.inr ⟨separates, head, .head _, rfl⟩)
        · exact .inr (.inl (.tail _ later))

/-- No part of a split holds the separator, and none holds anything new. -/
theorem mem_of_mem_splitOn (listed : part ∈ list.splitOn a) :
    a ∉ part ∧ ∀ b ∈ part, b ∈ list := by
  induction list generalizing part with
  | nil => simp_all
  | cons first list ih =>
      rcases mem_splitOn_cons listed with rfl | later | ⟨apart, rest, inRest, rfl⟩
      · simp
      · obtain ⟨absent, within⟩ := ih later
        exact ⟨absent, fun b member => .tail _ (within b member)⟩
      · obtain ⟨absent, within⟩ := ih inRest
        refine ⟨by simp [absent, Ne.symm apart], fun b member => ?_⟩
        rcases List.mem_cons.mp member with rfl | inPart
        · exact .head _
        · exact .tail _ (within b inPart)

theorem length_splitOn (a : α) (list : List α) : (list.splitOn a).length = list.count a + 1 := by
  induction list with
  | nil => simp
  | cons first list ih =>
      rw [List.splitOn_cons_eq_if_modifyHead]
      by_cases separates : first = a <;> simp [separates, ih]

end Split

/-- The tokens, cut at the slashes and then at the commas, are the characters of the
branches.  An escaped separator is a character, so it does not cut. -/
structure Pattern.IsSplit (pattern : Pattern) (tokens : List Token) : Prop where
  pieces : (tokens.splitOn .slash).map (·.splitOn .comma) =
    pattern.positions.map fun position =>
      position.branches.map fun branch => branch.toList.map Token.char
  size : pattern.size = tokens.count .slash + 1
  branches : ∀ position ∈ pattern.positions, 0 < position.size

theorem chars_branchOfTokens {tokens : List Token} (noSlash : Token.slash ∉ tokens)
    (noComma : Token.comma ∉ tokens) :
    (branchOfTokens tokens).toList.map Token.char = tokens := by
  rw [branchOfTokens, String.toList_ofList]
  induction tokens with
  | nil => rfl
  | cons token rest ih =>
      simp only [List.mem_cons, not_or] at noSlash noComma
      cases token with
      | slash => exact absurd rfl noSlash.1
      | comma => exact absurd rfl noComma.1
      | char c => simp [Token.char?, ih noSlash.2 noComma.2]

theorem Pattern.isSplit_ofTokens (tokens : List Token) :
    (Pattern.ofTokens tokens).IsSplit tokens := by
  refine ⟨?_, by simp [Pattern.size, Pattern.ofTokens, length_splitOn], ?_⟩
  · rw [Pattern.ofTokens, List.map_map]
    refine List.map_congr_left fun part listed => ?_
    obtain ⟨noSlash, _⟩ := mem_of_mem_splitOn listed
    rw [Function.comp_apply, Position.ofTokens, List.map_map]
    symm
    refine (List.map_congr_left fun branch inPart => ?_).trans (List.map_id _)
    obtain ⟨noComma, within⟩ := mem_of_mem_splitOn inPart
    exact chars_branchOfTokens (fun member => noSlash (within _ member)) noComma
  · intro position listed
    obtain ⟨part, _, rfl⟩ := List.mem_map.mp listed
    simp [Position.ofTokens, Position.size, length_splitOn]

theorem Pattern.IsSplit.unique {pattern other : Pattern} {tokens : List Token}
    (split : pattern.IsSplit tokens) (otherSplit : other.IsSplit tokens) : pattern = other := by
  have chars : Function.Injective fun branch : String => branch.toList.map Token.char := by
    intro branch otherBranch same
    have sameChars : Function.Injective (List.map Token.char) :=
      List.map_injective_iff.mpr fun _ _ => Token.char.inj
    exact String.toList_inj.mp (sameChars same)
  have branches : Function.Injective fun position : Position =>
      position.branches.map fun branch => branch.toList.map Token.char := by
    intro position otherPosition same
    cases position
    cases otherPosition
    exact congrArg Position.mk (List.map_injective_iff.mpr chars same)
  have positions := List.map_injective_iff.mpr branches (split.pieces.symm.trans otherSplit.pieces)
  cases pattern
  cases other
  exact congrArg Pattern.mk positions

theorem Pattern.parse_eq_ok_iff {expr : String} {pattern : Pattern} :
    Pattern.parse expr = .ok pattern ↔
      ∃ tokens, tokenize expr.toList = .ok tokens ∧ pattern = .ofTokens tokens := by
  unfold Pattern.parse
  cases tokenize expr.toList <;> simp [eq_comm]

/-- An expression is read exactly if it is written in tokens.  The pattern is then
their split: there is a position more than there are slashes, and every position
has a branch. -/
theorem Pattern.parse_written (expr : String) :
    ((∃ pattern, Pattern.parse expr = .ok pattern) ↔ ∃ tokens, Written expr.toList tokens) ∧
      ∀ pattern, Pattern.parse expr = .ok pattern ↔
        ∃ tokens, Written expr.toList tokens ∧ pattern.IsSplit tokens := by
  simp only [Pattern.parse_eq_ok_iff, tokenize_eq_ok_iff]
  refine ⟨⟨fun read => ?_, fun written => ?_⟩, fun pattern => ⟨fun read => ?_, fun written => ?_⟩⟩
  · obtain ⟨pattern, tokens, written, _⟩ := read
    exact ⟨tokens, written⟩
  · obtain ⟨tokens, written⟩ := written
    exact ⟨_, tokens, written, rfl⟩
  · obtain ⟨tokens, written, rfl⟩ := read
    exact ⟨tokens, written, Pattern.isSplit_ofTokens tokens⟩
  · obtain ⟨tokens, written, split⟩ := written
    exact ⟨tokens, written, split.unique (Pattern.isSplit_ofTokens tokens)⟩

example : Pattern.parse "a\\x2fb/\\,c,\\061" = .ok ⟨[⟨["a/b"]⟩, ⟨[",c", "1"]⟩]⟩ := by
  decide +kernel

end WordSubst
