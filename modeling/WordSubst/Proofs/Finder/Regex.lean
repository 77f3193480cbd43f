import WordSubst.Finder
import WordSubst.Proofs.Pattern.RoundTrip

namespace WordSubst

inductive RegexToken where
  | opening
  | bar
  | closing
  | char (c : Char)
  deriving DecidableEq

/-- The token that a bare character is.  All others with a meaning are refused. -/
def RegexToken.ofChar? : Char → Option RegexToken
  | '(' => some .opening
  | '|' => some .bar
  | ')' => some .closing
  | '\\' | '.' | '+' | '*' | '?' | '[' | ']' | '\x7b' | '\x7d' | '^' | '$' | '#' | '&' | '-'
  | '~' => none
  | c => some (.char c)

/-- Whether a character is an ASCII punctuation mark, the only kind that is escaped. -/
def isPunctuation (c : Char) : Bool :=
  '!' ≤ c && c ≤ '~' && !c.isAlphanum

def readRegexTokens? : (text : List Char) → Option (List RegexToken)
  | [] => some []
  | '\\' :: c :: rest =>
    if isPunctuation c then (readRegexTokens? rest).map (.char c :: ·) else none
  | c :: rest =>
    (RegexToken.ofChar? c).bind fun token => (readRegexTokens? rest).map (token :: ·)

/-- What has been read of a regular expression from its end on.  Within a group, that
is the rest of a branch and the branches after it. -/
inductive GroupReading where
  | between (positions : List Position)
  | within (branch : List Char) (later : List String) (positions : List Position)

/-- Reads the token before what has been read. -/
def RegexToken.read? : RegexToken → GroupReading → Option GroupReading
  | closing, .between positions => some (.within [] [] positions)
  | char c, .within branch later positions => some (.within (c :: branch) later positions)
  | bar, .within branch later positions =>
    some (.within [] (String.ofList branch :: later) positions)
  | opening, .within branch later positions =>
    some (.between (⟨String.ofList branch :: later⟩ :: positions))
  | _, _ => none

def readGroups? : List RegexToken → Option GroupReading
  | [] => some (.between [])
  | token :: rest => (readGroups? rest).bind token.read?

def readGroupedPattern? (text : List Char) : Option Pattern :=
  match (readRegexTokens? text).bind readGroups? with
  | some (.between positions) => some ⟨positions⟩
  | _ => none

def edgesOpening : List Char := "(?-u:\\b)(?:".toList

def edgesClosing : List Char := ")(?-u:\\b)".toList

def readRegex? (text : String) : Option Finder :=
  match text.toList.dropPrefix? edgesOpening with
  | none => (readGroupedPattern? text.toList).map (⟨·, false⟩)
  | some rest => ((rest.dropSuffix? edgesClosing).bind readGroupedPattern?).map (⟨·, true⟩)

/-- How many groups of a regular expression capture: those that no question mark follows. -/
def captureCount : (text : List Char) → Nat
  | [] => 0
  | '\\' :: _ :: rest => captureCount rest
  | '(' :: '?' :: rest => captureCount rest
  | '(' :: rest => captureCount rest + 1
  | _ :: rest => captureCount rest

def RegexToken.spell : RegexToken → List Char
  | opening => ['(']
  | bar => ['|']
  | closing => [')']
  | char c => if c ∈ metacharacters then ['\\', c] else [c]

def branchRegexTokens (branch : String) : List RegexToken :=
  branch.toList.map .char

def Position.regexTokens (position : Position) : List RegexToken :=
  .opening :: [.bar].intercalate (position.branches.map branchRegexTokens) ++ [.closing]

def Pattern.regexTokens (pattern : Pattern) : List RegexToken :=
  pattern.positions.flatMap Position.regexTokens

theorem flatMap_intercalate (f : α → List β) (separator : List α) (parts : List (List α)) :
    (separator.intercalate parts).flatMap f =
      (separator.flatMap f).intercalate (parts.map (·.flatMap f)) := by
  induction parts with
  | nil => rfl
  | cons part rest ih =>
      cases rest with
      | nil => simp
      | cons second rest =>
          rw [List.intercalate_cons_cons, List.flatMap_append, List.flatMap_append, ih]
          simp [List.intercalate_cons_cons]

theorem toList_regexLiteral (branch : String) :
    (regexLiteral branch).toList = (branchRegexTokens branch).flatMap RegexToken.spell := by
  rw [regexLiteral, String.toList_ofList, branchRegexTokens, List.flatMap_map]
  rfl

theorem Position.toList_regex (position : Position) :
    position.regex.toList = position.regexTokens.flatMap RegexToken.spell := by
  have branches : (position.branches.map regexLiteral).map String.toList =
      (position.branches.map branchRegexTokens).map (·.flatMap RegexToken.spell) := by
    rw [List.map_map, List.map_map]
    exact List.map_congr_left fun branch _ => toList_regexLiteral branch
  rw [regex, String.toList_append, String.toList_append, String.toList_intercalate, branches,
    regexTokens, List.flatMap_append, List.flatMap_cons, flatMap_intercalate]
  rfl

theorem Pattern.toList_regex (pattern : Pattern) :
    pattern.regex.toList = pattern.regexTokens.flatMap RegexToken.spell := by
  rw [regex, String.toList_join, regexTokens, List.flatMap_assoc, List.flatMap_map]
  exact List.flatMap_congr fun position _ => position.toList_regex

section Tokens

variable {c : Char} {rest : List Char}

theorem readRegexTokens?_cons (apart : c ≠ '\\') (rest : List Char) :
    readRegexTokens? (c :: rest) =
      (RegexToken.ofChar? c).bind fun token => (readRegexTokens? rest).map (token :: ·) := by
  rw [readRegexTokens?]
  intro next later backslash
  exact absurd backslash apart

theorem isPunctuation_of_mem_metacharacters (marked : c ∈ metacharacters) :
    isPunctuation c = true := by
  have all : metacharacters.all isPunctuation = true := by decide
  exact List.all_eq_true.mp all c marked

theorem ofChar?_of_not_mem_metacharacters (plain : c ∉ metacharacters) :
    RegexToken.ofChar? c = some (.char c) := by
  unfold RegexToken.ofChar?
  split
  case h_19 => rfl
  all_goals exact absurd (by decide) plain

theorem RegexToken.readRegexTokens?_spell (token : RegexToken) (rest : List Char) :
    readRegexTokens? (token.spell ++ rest) = (readRegexTokens? rest).map (token :: ·) := by
  cases token with
  | opening | bar | closing => exact readRegexTokens?_cons (by decide) rest
  | char c =>
      by_cases marked : c ∈ metacharacters
      · rw [spell, if_pos marked, List.cons_append, List.singleton_append, readRegexTokens?,
          if_pos (isPunctuation_of_mem_metacharacters marked)]
      · have apart : c ≠ '\\' := (ne_of_mem_of_not_mem (by decide) marked).symm
        rw [spell, if_neg marked, List.singleton_append, readRegexTokens?_cons apart,
          ofChar?_of_not_mem_metacharacters marked, Option.bind_some]

theorem readRegexTokens?_flatMap_spell (tokens : List RegexToken) :
    readRegexTokens? (tokens.flatMap RegexToken.spell) = some tokens := by
  induction tokens with
  | nil => rfl
  | cons token rest ih =>
      rw [List.flatMap_cons, RegexToken.readRegexTokens?_spell, ih, Option.map_some]

end Tokens

section Groups

variable {rest : List RegexToken} {positions : List Position}

theorem readGroups?_branch {branch : List Char} {later : List String}
    (read : readGroups? rest = some (.within branch later positions)) (text : List Char) :
    readGroups? (text.map .char ++ rest) = some (.within (text ++ branch) later positions) := by
  induction text with
  | nil => exact read
  | cons c text ih =>
      rw [List.map_cons, List.cons_append, readGroups?, ih, Option.bind_some]
      rfl

theorem readGroups?_branches (read : readGroups? rest = some (.between positions))
    (branch : String) (later : List String) :
    readGroups? ([.bar].intercalate ((branch :: later).map branchRegexTokens) ++
        .closing :: rest) =
      some (.within branch.toList later positions) := by
  -- Reading goes from the end, so all branches after the first are read before it.
  induction later generalizing branch with
  | nil =>
      have closed : readGroups? (.closing :: rest) = some (.within [] [] positions) := by
        rw [readGroups?, read, Option.bind_some]
        rfl
      have whole := readGroups?_branch closed branch.toList
      rw [List.append_nil] at whole
      simpa [branchRegexTokens] using whole
  | cons second later ih =>
      have barred : readGroups? (.bar ::
          ([.bar].intercalate ((second :: later).map branchRegexTokens) ++ .closing :: rest)) =
          some (.within [] (second :: later) positions) := by
        rw [readGroups?, ih, Option.bind_some, RegexToken.read?, String.ofList_toList]
      have whole := readGroups?_branch barred branch.toList
      rw [List.append_nil] at whole
      rw [List.map_cons, List.map_cons, List.intercalate_cons_cons]
      simpa [branchRegexTokens] using whole

theorem Position.readGroups?_regexTokens {position : Position} (full : position.branches ≠ [])
    (read : readGroups? rest = some (.between positions)) :
    readGroups? (position.regexTokens ++ rest) = some (.between (position :: positions)) := by
  obtain ⟨branches⟩ := position
  obtain ⟨branch, later, rfl⟩ := List.exists_cons_of_ne_nil full
  rw [regexTokens, List.cons_append, List.cons_append, List.append_assoc, List.singleton_append,
    readGroups?, readGroups?_branches read, Option.bind_some, RegexToken.read?,
    String.ofList_toList]

theorem Pattern.readGroups?_regexTokens {pattern : Pattern}
    (full : ∀ position ∈ pattern.positions, position.branches ≠ []) :
    readGroups? pattern.regexTokens = some (.between pattern.positions) := by
  obtain ⟨positions⟩ := pattern
  induction positions with
  | nil => rfl
  | cons position positions ih =>
      obtain ⟨first, others⟩ := List.forall_mem_cons.mp full
      exact position.readGroups?_regexTokens first (ih others)

end Groups

theorem Pattern.readGroupedPattern?_regex {pattern : Pattern}
    (full : ∀ position ∈ pattern.positions, position.branches ≠ []) :
    readGroupedPattern? pattern.regex.toList = some pattern := by
  rw [readGroupedPattern?, toList_regex, readRegexTokens?_flatMap_spell, Option.bind_some,
    readGroups?_regexTokens full]

/-- No position is written like the beginning of the edges, in which a question mark is
bare. -/
theorem readRegexTokens?_edgesOpening (rest : List Char) :
    readRegexTokens? (edgesOpening ++ rest) = none := by
  have opening : edgesOpening = '(' :: '?' :: "-u:\\b)(?:".toList := by decide
  rw [opening, List.cons_append, List.cons_append, readRegexTokens?_cons (by decide),
    readRegexTokens?_cons (by decide)]
  rfl

theorem Pattern.dropPrefix?_edgesOpening (pattern : Pattern) :
    pattern.regex.toList.dropPrefix? edgesOpening = none := by
  rw [Option.eq_none_iff_forall_ne_some]
  intro rest found
  obtain ⟨opening, split, same⟩ := List.dropPrefix?_eq_some_iff.mp found
  rw [toList_regex, eq_of_beq same] at split
  have read := readRegexTokens?_flatMap_spell pattern.regexTokens
  rw [split, readRegexTokens?_edgesOpening] at read
  cases read

theorem Finder.toList_regex_bounded (pattern : Pattern) :
    (Finder.mk pattern true).regex.toList =
      edgesOpening ++ (pattern.regex.toList ++ edgesClosing) := by
  rw [regex, if_pos rfl, String.toList_append, String.toList_append, List.append_assoc]
  rfl

theorem Finder.readRegex?_regex {finder : Finder} (full : finder.pattern.isEmpty = false) :
    readRegex? finder.regex = some finder := by
  obtain ⟨pattern, boundary⟩ := finder
  have read := Pattern.readGroupedPattern?_regex (Pattern.isEmpty_eq_false_iff.mp full).2
  cases boundary with
  | false =>
      have plain : (Finder.mk pattern false).regex = pattern.regex := rfl
      rw [readRegex?, plain, pattern.dropPrefix?_edgesOpening, read]
      rfl
  | true =>
      have ended : (pattern.regex.toList ++ edgesClosing).dropSuffix? edgesClosing =
          some pattern.regex.toList :=
        List.dropSuffix?_eq_some_iff.mpr ⟨edgesClosing, rfl, BEq.rfl⟩
      rw [readRegex?, toList_regex_bounded, List.dropPrefix?_append_of_beq _ BEq.rfl]
      simp only [ended, Option.bind_some, read, Option.map_some]

/-- Whoever reads the regular expression of a finder finds what the finder finds. -/
theorem Finder.findFrom_readRegex? {finder : Finder} (full : finder.pattern.isEmpty = false)
    (text : Bytes) (start : Nat) :
    (readRegex? finder.regex).map (·.findFrom text start) = some (finder.findFrom text start) := by
  rw [readRegex?_regex full, Option.map_some]

section Captures

variable {c : Char} {rest : List Char}

theorem captureCount_cons (apart : c ≠ '\\') (unopened : c ≠ '(') (rest : List Char) :
    captureCount (c :: rest) = captureCount rest := by
  rw [captureCount]
  · intro next later backslash
    exact absurd backslash apart
  · intro later opens
    exact absurd opens unopened
  · exact unopened

theorem captureCount_opening (captures : rest.head? ≠ some '?') :
    captureCount ('(' :: rest) = captureCount rest + 1 := by
  rw [captureCount]
  rintro later rfl
  exact captures rfl

theorem RegexToken.head?_spell_append (token : RegexToken) (rest : List Char) :
    (token.spell ++ rest).head? ≠ some '?' := by
  cases token with
  | opening | bar | closing => simp [spell]
  | char c =>
      by_cases marked : c ∈ metacharacters
      · simp [spell, marked]
      · have apart : c ≠ '?' := (ne_of_mem_of_not_mem (by decide) marked).symm
        simp [spell, marked, apart]

theorem RegexToken.captureCount_spell (token : RegexToken) (captures : rest.head? ≠ some '?') :
    captureCount (token.spell ++ rest) = [token].count .opening + captureCount rest := by
  cases token with
  | opening => exact (captureCount_opening captures).trans (Nat.add_comm _ _)
  | bar | closing => simp [spell, captureCount_cons]
  | char c =>
      by_cases marked : c ∈ metacharacters
      · simp [spell, marked, captureCount]
      · have apart : c ≠ '\\' := (ne_of_mem_of_not_mem (by decide) marked).symm
        have unopened : c ≠ '(' := (ne_of_mem_of_not_mem (by decide) marked).symm
        simp [spell, marked, captureCount_cons apart unopened]

theorem captureCount_flatMap_spell (tokens : List RegexToken) (captures : rest.head? ≠ some '?') :
    captureCount (tokens.flatMap RegexToken.spell ++ rest) =
      tokens.count .opening + captureCount rest := by
  induction tokens with
  | nil => simp
  | cons token tokens ih =>
      have onward : (tokens.flatMap RegexToken.spell ++ rest).head? ≠ some '?' := by
        cases tokens with
        | nil => exact captures
        | cons next tokens =>
            rw [List.flatMap_cons, List.append_assoc]
            exact next.head?_spell_append _
      have first := token.captureCount_spell onward
      rw [List.flatMap_cons, List.append_assoc, first, ih, ← Nat.add_assoc, ← List.count_append,
        List.singleton_append]

end Captures

theorem Position.count_opening (position : Position) :
    position.regexTokens.count .opening = 1 := by
  have absent : RegexToken.opening ∉
      [.bar].intercalate (position.branches.map branchRegexTokens) := by
    intro member
    rcases mem_of_mem_intercalate member with inSeparator | ⟨part, listed, inPart⟩
    · simp at inSeparator
    · obtain ⟨branch, _, rfl⟩ := List.mem_map.mp listed
      simp [branchRegexTokens] at inPart
  rw [regexTokens, List.count_append, List.count_cons_self, List.count_eq_zero.mpr absent]
  rfl

theorem Pattern.count_opening (pattern : Pattern) :
    pattern.regexTokens.count .opening = pattern.size := by
  rw [regexTokens, List.count_flatMap]
  simp [Function.comp_def, Position.count_opening, size]

theorem captureCount_edgesOpening (rest : List Char) :
    captureCount (edgesOpening ++ rest) = captureCount rest :=
  rfl

theorem Finder.captureCount_regex (finder : Finder) :
    captureCount finder.regex.toList = finder.pattern.size := by
  have count : ∀ rest : List Char, rest.head? ≠ some '?' →
      captureCount (finder.pattern.regex.toList ++ rest) =
        finder.pattern.size + captureCount rest := by
    intro rest captures
    rw [Pattern.toList_regex, captureCount_flatMap_spell _ captures, Pattern.count_opening]
  obtain ⟨pattern, boundary⟩ := finder
  cases boundary with
  | false =>
      have whole := count [] (by simp)
      rwa [List.append_nil] at whole
  | true =>
      rw [Finder.toList_regex_bounded, captureCount_edgesOpening, count edgesClosing (by decide)]
      rfl

/-- The regular expression of a finder that was read says all of it: it is read back as
the finder, captures one group for each position and is that of no other finder. -/
theorem Finder.regex_faithful {expr : String} {finder : Finder}
    (read : Pattern.parse expr = .ok finder.pattern) :
    readRegex? finder.regex = some finder ∧
      captureCount finder.regex.toList = finder.pattern.size ∧
      ∀ (otherExpr : String) (other : Finder), Pattern.parse otherExpr = .ok other.pattern →
        other.regex = finder.regex → other = finder := by
  have back := Finder.readRegex?_regex (Pattern.isEmpty_of_parse read)
  have alone : ∀ (otherExpr : String) (other : Finder),
      Pattern.parse otherExpr = .ok other.pattern → other.regex = finder.regex →
        other = finder := by
    intro otherExpr other readOther same
    have backOther := Finder.readRegex?_regex (Pattern.isEmpty_of_parse readOther)
    rw [same, back] at backOther
    exact (Option.some.inj backOther).symm
  exact ⟨back, finder.captureCount_regex, alone⟩

/-- Branches that imitate groups, the edges and escapes, and an empty one. -/
theorem Finder.regex_faithful_imitations :
    ∃ finder : Finder, Pattern.parse "(?-u:\\\\b)(?:,)|(/\\\\,,\\n)" = .ok finder.pattern ∧
      finder = ⟨⟨[⟨["(?-u:\\b)(?:", ")|("]⟩, ⟨["\\", "", "\n)"]⟩]⟩, true⟩ ∧
      finder.regex =
        "(?-u:\\b)(?:(\\(\\?\\-u:\\\\b\\)\\(\\?:|\\)\\|\\()(\\\\||\n\\)))(?-u:\\b)" ∧
      readRegex? finder.regex = some finder ∧ captureCount finder.regex.toList = 2 := by
  have read : Pattern.parse "(?-u:\\\\b)(?:,)|(/\\\\,,\\n)" =
      .ok (Finder.mk ⟨[⟨["(?-u:\\b)(?:", ")|("]⟩, ⟨["\\", "", "\n)"]⟩]⟩ true).pattern := by
    decide +kernel
  obtain ⟨back, captures, _⟩ := Finder.regex_faithful read
  exact ⟨_, read, rfl, by decide +kernel, back, captures⟩

end WordSubst
