import Mathlib.Data.List.SplitBy
import WordSubst.Proofs.Finder.Coverage
import WordSubst.Proofs.Rule.Locality
import WordSubst.Proofs.Rule.SinglePosition

namespace WordSubst

/-- A text cut into its longest runs of word bytes and, between them, its other
bytes one by one. -/
def cutWords (text : Bytes) : List Bytes :=
  text.splitBy fun byte next => isWordByte byte && isWordByte next

/-- What the target spells for the least choice for which the source spells the word. -/
def Pattern.translate? (source target : Pattern) (word : Bytes) : Option Bytes := do
  let choice ← (choices source.literals).find? fun choice =>
    (source.spell? choice).map utf8 = some word
  (target.spell? choice).map utf8

section Cut

variable {word right : Bytes} {byte : UInt8}

theorem cutWords_of_word (letters : ∀ byte ∈ word, isWordByte byte = true) :
    cutWords word = if word = [] then [] else [word] := by
  by_cases nothing : word = []
  · rw [if_pos nothing, nothing]
    rfl
  · rw [if_neg nothing]
    have related : word.Pairwise fun byte next => (isWordByte byte && isWordByte next) = true :=
      List.pairwise_of_forall_mem_list fun byte first next second => by
        rw [letters byte first, letters next second, Bool.and_true]
    exact List.splitBy_of_isChain nothing related.isChain

theorem cutWords_append_cons (apart : isWordByte byte = false) (left right : Bytes) :
    cutWords (left ++ byte :: right) = cutWords left ++ [byte] :: cutWords right := by
  have first : cutWords (left ++ byte :: right) = cutWords left ++ cutWords (byte :: right) := by
    refine List.splitBy_append_cons right fun last _ => ?_
    rw [apart, Bool.and_false]
  have second : cutWords ([byte] ++ right) = [[byte]] ++ cutWords right := by
    refine List.splitBy_append fun last isLast next _ => ?_
    obtain rfl : byte = last := by simpa using isLast
    rw [apart, Bool.false_and]
  rw [first, ← List.singleton_append, second]
  rfl

end Cut

section Word

variable {word bytes : Bytes} {place : Nat}

theorem wordAfter_of_letters (letters : ∀ byte ∈ word, isWordByte byte = true) (place : Nat) :
    wordAfter word place = decide (place < word.length) := by
  rw [wordAfter]
  by_cases inside : place < word.length
  · rw [List.getElem?_eq_getElem inside, Option.any_some, letters _ (List.getElem_mem inside),
      decide_eq_true inside]
  · rw [List.getElem?_eq_none (Nat.le_of_not_lt inside), Option.any_none,
      decide_eq_false inside]

/-- Between the ends of a word there is no edge, so only the word itself stands in it. -/
theorem stands_word_iff (letters : ∀ byte ∈ word, isWordByte byte = true) (something : bytes ≠ []) :
    Stands true word place bytes ↔ place = 0 ∧ bytes = word := by
  have positive := List.length_pos_iff.mpr something
  constructor
  · intro stands
    obtain ⟨startEdge, stopEdge⟩ := stands.edges rfl
    have stop := stands.stop_le
    have start : place = 0 := by
      cases place with
      | zero => rfl
      | succ before =>
          refine absurd ?_ startEdge
          rw [wordBefore, wordAfter_of_letters letters, wordAfter_of_letters letters]
          simp only [decide_eq_decide]
          omega
    subst start
    have whole : bytes.length = word.length := by
      obtain ⟨size, last⟩ := Nat.exists_eq_add_one_of_ne_zero (Nat.ne_of_gt positive)
      rw [IsEdge, Nat.zero_add, last, wordBefore, wordAfter_of_letters letters,
        wordAfter_of_letters letters, ne_eq, decide_eq_decide] at stopEdge
      omega
    exact ⟨rfl, stands.here.eq_of_length (by simpa using whole)⟩
  · rintro ⟨start, whole⟩
    subst start whole
    refine ⟨Nat.zero_le _, by simp, fun _ => ⟨?_, ?_⟩⟩
    · simp [IsEdge, wordBefore, wordAfter_of_letters letters, positive]
    · obtain ⟨size, last⟩ := Nat.exists_eq_add_one_of_ne_zero (Nat.ne_of_gt positive)
      simp [IsEdge, last, wordBefore, wordAfter_of_letters letters]

end Word

theorem Finder.map_utf8_spell? (finder : Finder) (choice : List Nat) :
    (finder.pattern.spell? choice).map utf8 = (pick finder.slots choice).map List.flatten := by
  rw [slots_eq, pick_map, Pattern.spell?, Option.map_map, Option.map_map]
  exact congrArg (Option.map · _) (funext utf8_join)

theorem Finder.fit_word_iff {finder : Finder} {word : Bytes} {place : Nat} {choice : List Nat}
    {pieces : List Bytes} (bounded : finder.boundary = true) (solid : finder.Solid)
    (letters : ∀ byte ∈ word, isWordByte byte = true) :
    finder.Fit word place choice pieces ↔
      place = 0 ∧ pick finder.slots choice = some pieces ∧ pieces.flatten = word := by
  constructor
  · rintro ⟨stands, picked⟩
    rw [bounded] at stands
    obtain ⟨start, whole⟩ := (stands_word_iff letters (solid choice pieces picked)).mp stands
    exact ⟨start, picked, whole⟩
  · rintro ⟨start, picked, whole⟩
    refine ⟨?_, picked⟩
    rw [bounded]
    exact (stands_word_iff letters (solid choice pieces picked)).mpr ⟨start, whole⟩

section Translate

variable {searched replacing : Pattern} {word : Bytes}

theorem translate?_of_least {choice : List Nat}
    (spells : (searched.spell? choice).map utf8 = some word)
    (least : ∀ other, (searched.spell? other).map utf8 = some word → choice ≤ other) :
    searched.translate? replacing word = (replacing.spell? choice).map utf8 := by
  obtain ⟨spelled, found, _⟩ := Option.map_eq_some_iff.mp spells
  have listed := mem_choices_iff_spell?.mpr ⟨spelled, found⟩
  have first : (choices searched.literals).find?
      (fun choice => (searched.spell? choice).map utf8 = some word) = some choice :=
    find?_choices_of_least listed (decide_eq_true spells)
      fun other accepted => least other (of_decide_eq_true accepted)
  rw [Pattern.translate?, first]
  rfl

theorem translate?_eq_none (unspelled : ∀ choice, (searched.spell? choice).map utf8 ≠ some word) :
    searched.translate? replacing word = none := by
  have nothing : (choices searched.literals).find?
      (fun choice => (searched.spell? choice).map utf8 = some word) = none :=
    List.find?_eq_none.mpr fun choice _ => by simpa using unspelled choice
  rw [Pattern.translate?, nothing]
  rfl

end Translate

section Word

variable {finder : Finder} {word : Bytes}

/-- All that is found in a word is what is found at its beginning, since it covers
the word. -/
theorem Finder.findAll_word (bounded : finder.boundary = true) (solid : finder.Solid)
    (letters : ∀ byte ∈ word, isWordByte byte = true) :
    finder.findAll word = (finder.hit? word 0).toList.map (Occurrence.mk 0) := by
  have run : Scanned (finder.hit? word) word.length 0 false (finder.findAll word) :=
    finder.findFrom_scanned word 0
  have atStart : ∀ occurrence ∈ finder.findAll word, occurrence.start = 0 := by
    intro occurrence picked
    obtain ⟨choice, best⟩ := bestFit_of_mem_findAll picked
    exact ((fit_word_iff bounded solid letters).mp best.toFit).1
  cases here : finder.hit? word 0 with
  | none =>
      rw [Option.toList_none, List.map_nil, List.eq_nil_iff_forall_not_mem]
      intro occurrence picked
      have hits := run.found_hit picked
      rw [atStart occurrence picked, here] at hits
      cases hits
  | some pieces =>
      obtain ⟨choice, best⟩ := hit?_eq_some_iff.mp here
      obtain ⟨later, found⟩ := run.begins (Nat.zero_le _) here (solid choice pieces best.picked)
      have ordered := run.ordered
      rw [found] at atStart ordered
      have alone : later = [] := by
        rw [List.eq_nil_iff_forall_not_mem]
        intro other picked
        have after := ((List.pairwise_cons.mp ordered).1 other picked).1
        rw [atStart other (.tail _ picked)] at after
        exact Nat.not_lt_zero _ after
      rw [found, alone]
      rfl

theorem Rule.apply_word {rule : Rule} (bounded : rule.finder.boundary = true)
    (solid : rule.finder.Solid) (letters : ∀ byte ∈ word, isWordByte byte = true) :
    rule.apply word = (rule.finder.pattern.translate? rule.table.target word).getD word := by
  have spells_iff : ∀ choice, (rule.finder.pattern.spell? choice).map utf8 = some word ↔
      ∃ pieces, pick rule.finder.slots choice = some pieces ∧ pieces.flatten = word := by
    intro choice
    rw [← Option.map_eq_some_iff, ← Finder.map_utf8_spell?]
  rw [apply_eq_splice, Finder.findAll_word bounded solid letters]
  cases here : rule.finder.hit? word 0 with
  | none =>
      have unspelled : rule.finder.pattern.translate? rule.table.target word = none := by
        refine translate?_eq_none fun choice spells => ?_
        obtain ⟨pieces, picked, whole⟩ := (spells_iff choice).mp spells
        exact Finder.hit?_eq_none_iff.mp here choice pieces
          ((Finder.fit_word_iff bounded solid letters).mpr ⟨rfl, picked, whole⟩)
      rw [unspelled]
      rfl
  | some pieces =>
      obtain ⟨choice, best⟩ := Finder.hit?_eq_some_iff.mp here
      obtain ⟨_, picked, whole⟩ := (Finder.fit_word_iff bounded solid letters).mp best.toFit
      have taken : pick rule.finder.slots choice = some (Occurrence.mk 0 pieces).pieces := picked
      obtain ⟨replacement, spelled, expanded⟩ := Rule.expand_eq taken
      have translated : rule.finder.pattern.translate? rule.table.target word =
          some (utf8 replacement) := by
        rw [translate?_of_least ((spells_iff choice).mpr ⟨pieces, picked, whole⟩), spelled,
          Option.map_some]
        intro other spells
        obtain ⟨otherPieces, otherPicked, otherWhole⟩ := (spells_iff other).mp spells
        exact best.least other otherPieces
          ((Finder.fit_word_iff bounded solid letters).mpr ⟨rfl, otherPicked, otherWhole⟩)
      have stop : (Occurrence.mk 0 pieces).stop = word.length := by
        rw [Occurrence.stop, Occurrence.text, whole, Nat.zero_add]
      rw [translated, Option.toList_some, List.map_singleton, splice, expanded, stop]
      simp [splice]

end Word

/-- If bytes outside words part a text for a rule, it does to a text what it does to
the words in it.  Here `word` is the beginning of a run that goes on in the text. -/
theorem Rule.apply_word_append {rule : Rule} {translate : Bytes → Bytes}
    (parts : ∀ byte, isWordByte byte = false → rule.finder.Foreign byte)
    (words : ∀ word, (∀ byte ∈ word, isWordByte byte = true) → rule.apply word = translate word)
    (gaps : ∀ gap, (∀ byte ∈ gap, isWordByte byte = false) → translate gap = gap)
    {word : Bytes} (letters : ∀ byte ∈ word, isWordByte byte = true) (text : Bytes) :
    rule.apply (word ++ text) = (cutWords (word ++ text)).flatMap translate := by
  have single : ∀ {word}, (∀ byte ∈ word, isWordByte byte = true) →
      (cutWords word).flatMap translate = rule.apply word := by
    intro word letters
    rw [words word letters, cutWords_of_word letters]
    by_cases nothing : word = []
    · rw [if_pos nothing, nothing, gaps [] (List.forall_mem_nil _)]
      rfl
    · rw [if_neg nothing, List.flatMap_singleton]
  -- The word grows by each letter, until a byte that is none ends it.
  induction text generalizing word with
  | nil => rw [List.append_nil, single letters]
  | cons byte text ih =>
      cases kind : isWordByte byte with
      | true =>
          have longer : ∀ next ∈ word ++ [byte], isWordByte next = true := by
            intro next listed
            rcases List.mem_append.mp listed with inWord | last
            · exact letters next inWord
            · rwa [List.mem_singleton.mp last]
          have onward := ih longer
          rwa [List.append_assoc, List.singleton_append] at onward
      | false =>
          have rest := ih (List.forall_mem_nil _)
          have kept : translate [byte] = [byte] :=
            gaps [byte] fun other listed => by rwa [List.mem_singleton.mp listed]
          rw [List.nil_append] at rest
          rw [apply_append_cons (parts byte kind), rest, cutWords_append_cons kind,
            List.flatMap_append, List.flatMap_cons, single letters, kept, List.singleton_append]

/-- With `boundary`, branches of word bytes and a position without an empty branch,
applying a rule is translating each longest run of word bytes in the text: what the
least choice that spells the run leads to is put in its place.  All other runs and
bytes are kept. -/
theorem Rule.apply_eq_translated_words {source target : String} {rule : Rule}
    {replacing : Pattern} (made : Rule.ofExprs source target true = .ok rule)
    (readTarget : Pattern.parse target = .ok replacing)
    (letters : ∀ position ∈ rule.finder.pattern.positions, ∀ branch ∈ position.branches,
      ∀ byte ∈ utf8 branch, isWordByte byte = true)
    (full : ∃ position ∈ rule.finder.pattern.positions, "" ∉ position.branches) (text : Bytes) :
    rule.apply text = (cutWords text).flatMap fun part =>
      (rule.finder.pattern.translate? replacing part).getD part := by
  obtain ⟨_, readToo, bounded⟩ := Rule.ofExprs_eq_ok_iff.mp made
  cases readTarget.symm.trans readToo
  have solid : rule.finder.Solid := Finder.solid_of_position full
  have parts : ∀ byte, isWordByte byte = false → rule.finder.Foreign byte := by
    intro byte apart
    refine Finder.foreign_of_unlisted (fun position listed branch inPosition inBranch => ?_)
      fun _ => apart
    rw [letters position listed branch inPosition byte inBranch] at apart
    cases apart
  have gaps : ∀ gap, (∀ byte ∈ gap, isWordByte byte = false) →
      (rule.finder.pattern.translate? rule.table.target gap).getD gap = gap := by
    intro gap apart
    have unspelled : rule.finder.pattern.translate? rule.table.target gap = none := by
      refine translate?_eq_none fun choice spells => ?_
      rw [Finder.map_utf8_spell?, Option.map_eq_some_iff] at spells
      obtain ⟨pieces, picked, rfl⟩ := spells
      obtain ⟨byte, listed⟩ := List.exists_mem_of_ne_nil _ (solid choice pieces picked)
      exact (parts byte (apart byte listed)).not_mem_flatten picked listed
    rw [unspelled, Option.getD_none]
  have whole := Rule.apply_word_append parts (fun word => Rule.apply_word bounded solid) gaps
    (List.forall_mem_nil _) text
  rwa [List.nil_append] at whole

/-- A branch that stands first but is shorter than a word, a word that two choices
spell, and a word beside a byte that is no text. -/
theorem Rule.apply_eq_translated_words_overlapping :
    ∃ rule, Rule.ofExprs "a,ab/bc,c," "1,2/3,4,$1" true = .ok rule ∧
      rule.apply (utf8 "abc abd ab_" ++ [0xFF] ++ utf8 "ab") =
        utf8 "13 abd ab_" ++ [0xFF] ++ utf8 "2$1" ∧
      ∃ replacing, Pattern.parse "1,2/3,4,$1" = .ok replacing ∧
        ∀ text, rule.apply text = (cutWords text).flatMap fun part =>
          (rule.finder.pattern.translate? replacing part).getD part := by
  have made : Rule.ofExprs "a,ab/bc,c," "1,2/3,4,$1" true =
      .ok (.ofTable ⟨[.mk [("a", "1"), ("ab", "2")],
        .mk [("bc", "3"), ("c", "4"), ("", "$1")]]⟩ true) := by
    decide +kernel
  have readTarget : Pattern.parse "1,2/3,4,$1" = .ok ⟨[⟨["1", "2"]⟩, ⟨["3", "4", "$1"]⟩]⟩ := by
    decide +kernel
  exact ⟨_, made, by decide, _, readTarget,
    Rule.apply_eq_translated_words made readTarget (by decide +kernel) (by decide)⟩

end WordSubst
