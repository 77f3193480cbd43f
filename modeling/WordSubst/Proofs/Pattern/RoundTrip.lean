import Mathlib.Data.List.Forall2
import WordSubst.Pattern

namespace WordSubst

/-- Wherever the text stands, reading it yields the tokens and then goes on. -/
def Spells (text : List Char) (tokens : List Token) : Prop :=
  ∀ rest, tokenize (text ++ rest) = (tokenize rest).map (tokens ++ ·)

theorem Except.map_map_append (outcome : Except ε (List α)) (first second : List α) :
    (outcome.map (second ++ ·)).map (first ++ ·) = outcome.map (first ++ second ++ ·) := by
  cases outcome <;> simp [Except.map]

namespace Spells

theorem nil : Spells [] [] := by
  intro rest
  cases read : tokenize rest <;> simp [read, Except.map]

theorem append {text after : List Char} {tokens afterTokens : List Token}
    (spells : Spells text tokens) (spellsAfter : Spells after afterTokens) :
    Spells (text ++ after) (tokens ++ afterTokens) := by
  intro rest
  rw [List.append_assoc, spells, spellsAfter, Except.map_map_append]

theorem of_read {c : Char} {text : List Char} {token : Token}
    (read : ∀ rest, Token.read c (text ++ rest) = .ok (token, rest)) :
    Spells (c :: text) [token] := by
  intro rest
  exact tokenize_cons_of_ok (read rest)

theorem tokenize_eq {text : List Char} {tokens : List Token} (spells : Spells text tokens) :
    tokenize text = .ok tokens := by
  have read := spells []
  rwa [List.append_nil, tokenize_nil, Except.map, List.append_nil] at read

theorem slash : Spells ['/'] [.slash] :=
  of_read fun _ => rfl

theorem comma : Spells [','] [.comma] :=
  of_read fun _ => rfl

theorem plain {c : Char} (apart : c ∉ ['\\', '/', ',']) : Spells [c] [.char c] := by
  simp only [List.mem_cons, List.not_mem_nil, or_false, not_or] at apart
  obtain ⟨notBackslash, notSlash, notComma⟩ := apart
  refine of_read fun rest => ?_
  rw [Token.read, if_neg notBackslash, if_neg notSlash, if_neg notComma]
  rfl

/-- A character is spelled as it is, or after a backslash if it has a meaning of its own. -/
theorem char (c : Char) : Spells (if isStructural c then ['\\', c] else [c]) [.char c] := by
  by_cases structural : isStructural c = true
  · rw [if_pos structural]
    simp only [isStructural, Bool.or_eq_true, beq_iff_eq] at structural
    rcases structural with (rfl | rfl) | rfl <;> exact of_read fun _ => rfl
  · rw [if_neg structural]
    simp only [isStructural, Bool.or_eq_true, beq_iff_eq, not_or] at structural
    exact plain (by simp [structural])

theorem literal (literal : String) :
    Spells (escapeLiteral literal).toList (literal.toList.map Token.char) := by
  rw [escapeLiteral, String.toList_ofList]
  induction literal.toList with
  | nil => exact nil
  | cons c rest ih => exact (char c).append ih

/-- Spellings joined by a separator spell tokens joined by its tokens. -/
theorem intercalate {separator : List Char} {separatorTokens : List Token}
    (separated : Spells separator separatorTokens) {texts : List (List Char)}
    {tokens : List (List Token)} (spells : List.Forall₂ Spells texts tokens) :
    Spells (separator.intercalate texts) (separatorTokens.intercalate tokens) := by
  induction spells with
  | nil => exact nil
  | cons first later ih =>
      cases later with
      | nil => simpa using first
      | cons second rest =>
          rw [List.intercalate_cons_cons, List.intercalate_cons_cons]
          exact (first.append separated).append ih

end Spells

def Position.tokens (position : Position) : List Token :=
  [Token.comma].intercalate (position.branches.map fun branch => branch.toList.map Token.char)

def Pattern.tokens (pattern : Pattern) : List Token :=
  [Token.slash].intercalate (pattern.positions.map Position.tokens)

theorem Position.spells (position : Position) : Spells position.render.toList position.tokens := by
  rw [Position.render, String.toList_intercalate, List.map_map]
  refine Spells.intercalate Spells.comma ?_
  rw [List.forall₂_map_left_iff, List.forall₂_map_right_iff, List.forall₂_same]
  exact fun branch _ => Spells.literal branch

theorem Pattern.spells (pattern : Pattern) : Spells pattern.render.toList pattern.tokens := by
  rw [Pattern.render, String.toList_intercalate, List.map_map]
  refine Spells.intercalate Spells.slash ?_
  rw [List.forall₂_map_left_iff, List.forall₂_map_right_iff, List.forall₂_same]
  exact fun position _ => position.spells

theorem branchOfTokens_map_char (branch : String) :
    branchOfTokens (branch.toList.map Token.char) = branch := by
  have chars : ∀ text : List Char, (text.map Token.char).filterMap Token.char? = text := by
    intro text
    induction text with
    | nil => rfl
    | cons c rest ih => simp [Token.char?, ih]
  rw [branchOfTokens, chars, String.ofList_toList]

theorem mem_of_mem_intercalate {separator : List α} {parts : List (List α)} {a : α}
    (member : a ∈ separator.intercalate parts) : a ∈ separator ∨ ∃ part ∈ parts, a ∈ part := by
  induction parts with
  | nil => simp at member
  | cons part rest ih =>
      cases rest with
      | nil => exact .inr ⟨part, .head _, by simpa using member⟩
      | cons second rest =>
          rw [List.intercalate_cons_cons, List.mem_append, List.mem_append] at member
          rcases member with (inPart | inSeparator) | inRest
          · exact .inr ⟨part, .head _, inPart⟩
          · exact .inl inSeparator
          · rcases ih inRest with inSeparator | ⟨other, later, inOther⟩
            · exact .inl inSeparator
            · exact .inr ⟨other, .tail _ later, inOther⟩

theorem slash_not_mem_tokens (position : Position) : Token.slash ∉ position.tokens := by
  intro member
  rcases mem_of_mem_intercalate member with inSeparator | ⟨part, listed, inPart⟩
  · simp at inSeparator
  · obtain ⟨branch, _, rfl⟩ := List.mem_map.mp listed
    simp at inPart

theorem Position.ofTokens_tokens {position : Position} (nonempty : position.branches ≠ []) :
    Position.ofTokens position.tokens = position := by
  have split : position.tokens.splitOn .comma =
      position.branches.map fun branch => branch.toList.map Token.char := by
    refine List.splitOn_intercalate _ (fun part listed => ?_) (by simpa using nonempty)
    obtain ⟨branch, _, rfl⟩ := List.mem_map.mp listed
    simp
  rw [Position.ofTokens, split, List.map_map]
  simp [Function.comp_def, branchOfTokens_map_char]

theorem Pattern.ofTokens_tokens {pattern : Pattern} (nonempty : pattern.positions ≠ [])
    (branches : ∀ position ∈ pattern.positions, position.branches ≠ []) :
    Pattern.ofTokens pattern.tokens = pattern := by
  have split : pattern.tokens.splitOn .slash = pattern.positions.map Position.tokens := by
    refine List.splitOn_intercalate _ (fun part listed => ?_) (by simpa using nonempty)
    obtain ⟨position, _, rfl⟩ := List.mem_map.mp listed
    exact slash_not_mem_tokens position
  have positions : pattern.positions.map (Position.ofTokens ∘ Position.tokens) =
      pattern.positions := by
    refine (List.map_congr_left fun position listed => ?_).trans (List.map_id _)
    exact Position.ofTokens_tokens (branches position listed)
  rw [Pattern.ofTokens, split, List.map_map, positions]

/-- A pattern that has a position, and no position without a branch, is read back. -/
theorem Pattern.parse_render {pattern : Pattern} (nonempty : pattern.positions ≠ [])
    (branches : ∀ position ∈ pattern.positions, position.branches ≠ []) :
    Pattern.parse pattern.render = .ok pattern := by
  simp only [Pattern.parse, pattern.spells.tokenize_eq, ofTokens_tokens nonempty branches]

theorem Pattern.parse_render_of_isEmpty {pattern : Pattern} (full : pattern.isEmpty = false) :
    Pattern.parse pattern.render = .ok pattern := by
  obtain ⟨nonempty, branches⟩ := Pattern.isEmpty_eq_false_iff.mp full
  exact Pattern.parse_render nonempty branches

/-- The patterns that are not empty are read back from the way they are written, so
no two of them are written alike.  No other pattern is read from any expression. -/
theorem Pattern.render_faithful (pattern : Pattern) :
    (pattern.isEmpty = false ↔ Pattern.parse pattern.render = .ok pattern) ∧
      (pattern.isEmpty = false ↔ ∃ expr, Pattern.parse expr = .ok pattern) ∧
      (pattern.isEmpty = false → ∀ other : Pattern, other.isEmpty = false →
        other.render = pattern.render → other = pattern) := by
  have full_of_parse : ∀ expr, Pattern.parse expr = .ok pattern → pattern.isEmpty = false :=
    fun _ => Pattern.isEmpty_of_parse
  refine ⟨⟨Pattern.parse_render_of_isEmpty, full_of_parse _⟩, ⟨fun full => ?_, fun read => ?_⟩,
    ?_⟩
  · exact ⟨_, Pattern.parse_render_of_isEmpty full⟩
  · obtain ⟨expr, read⟩ := read
    exact full_of_parse expr read
  · intro full other otherFull same
    have read := Pattern.parse_render_of_isEmpty otherFull
    rw [same, Pattern.parse_render_of_isEmpty full] at read
    exact (Except.ok.inj read).symm

example : (Pattern.mk [⟨["", "a/"]⟩, ⟨["\\", ",x41"]⟩]).render = ",a\\//\\\\,\\,x41" := by
  decide +kernel

end WordSubst
