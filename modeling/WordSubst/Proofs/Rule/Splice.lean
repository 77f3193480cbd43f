import WordSubst.Proofs.Finder.Coverage
import WordSubst.Proofs.Finder.Regex
import WordSubst.Proofs.Pattern.RoundTrip
import WordSubst.Proofs.Rule.Pairing

namespace WordSubst

/-- The bytes before, between and after the occurrences, from a place on. -/
def gaps (text : Bytes) : (cursor : Nat) → List Occurrence → List Bytes
  | cursor, [] => [cut text (cursor, text.length)]
  | cursor, occurrence :: later =>
    cut text (cursor, occurrence.start) :: gaps text occurrence.stop later

def interleave : (gaps texts : List Bytes) → Bytes
  | gap :: gaps, text :: texts => gap ++ text ++ interleave gaps texts
  | gaps, _ => gaps.flatten

theorem cut_to_end (text : Bytes) (cursor : Nat) :
    cut text (cursor, text.length) = text.drop cursor := by
  rw [cut]
  apply List.take_of_length_le
  rw [List.length_drop]

theorem cut_append_drop {text : Bytes} {cursor place : Nat} (later : cursor ≤ place) :
    cut text (cursor, place) ++ text.drop place = text.drop cursor := by
  have onward : text.drop place = (text.drop cursor).drop (place - cursor) := by
    rw [List.drop_drop, Nat.add_sub_cancel' later]
  rw [onward]
  exact List.take_append_drop _ _

theorem splice_eq_interleave (expand : Occurrence → Bytes) {text : Bytes} {cursor : Nat}
    {found : List Occurrence} (after : ∀ occurrence ∈ found, cursor ≤ occurrence.start)
    (ordered : found.Pairwise Occurrence.Before) :
    splice expand cursor (text.drop cursor) found =
      interleave (gaps text cursor found) (found.map expand) := by
  induction found generalizing cursor with
  | nil => simp [splice, gaps, interleave, cut_to_end]
  | cons occurrence later ih =>
      obtain ⟨before, ordered⟩ := List.pairwise_cons.mp ordered
      have start := after occurrence (.head _)
      have stop := Nat.le_trans start occurrence.start_le_stop
      have rest := ih (fun other member => (before other member).2.2) ordered
      rw [splice, List.drop_drop, Nat.add_sub_cancel' stop, rest]
      rfl

/-- Splicing looks at an occurrence only for its ends and for what it is expanded to. -/
theorem splice_map {expand other : Occurrence → Bytes} {answer : Occurrence → Occurrence}
    (cursor : Nat) (text : Bytes) {found : List Occurrence}
    (same : ∀ occurrence ∈ found, (answer occurrence).start = occurrence.start ∧
      (answer occurrence).stop = occurrence.stop ∧
        other (answer occurrence) = expand occurrence) :
    splice other cursor text (found.map answer) = splice expand cursor text found := by
  induction found generalizing cursor text with
  | nil => rfl
  | cons occurrence later ih =>
      obtain ⟨start, stop, expanded⟩ := same occurrence (.head _)
      have rest := fun another member => same another (.tail _ member)
      rw [List.map_cons, splice, splice, start, stop, expanded, ih _ _ rest]

theorem interleave_gaps_text {text : Bytes} {cursor : Nat} {found : List Occurrence}
    (after : ∀ occurrence ∈ found, cursor ≤ occurrence.start)
    (ordered : found.Pairwise Occurrence.Before)
    (stands : ∀ occurrence ∈ found, occurrence.text <+: text.drop occurrence.start) :
    interleave (gaps text cursor found) (found.map Occurrence.text) = text.drop cursor := by
  induction found generalizing cursor with
  | nil => simp [gaps, interleave, cut_to_end]
  | cons occurrence later ih =>
      obtain ⟨before, ordered⟩ := List.pairwise_cons.mp ordered
      obtain ⟨onward, split⟩ := stands occurrence (.head _)
      have rest := ih (fun other member => (before other member).2.2) ordered
        (fun other member => stands other (.tail _ member))
      have stop : text.drop occurrence.stop = onward := by
        rw [Occurrence.stop, ← List.drop_drop, ← split, List.drop_left]
      rw [gaps, List.map_cons, interleave, rest, stop, List.append_assoc, split]
      exact cut_append_drop (after occurrence (.head _))

namespace Finder

theorem bestFit_of_mem_findAll {finder : Finder} {text : Bytes} {occurrence : Occurrence}
    (picked : occurrence ∈ finder.findAll text) :
    ∃ choice, finder.BestFit text occurrence.start choice occurrence.pieces :=
  hit?_eq_some_iff.mp ((finder.findFrom_scanned text 0).found_hit picked)

theorem splice_findAll (finder : Finder) (expand : Occurrence → Bytes) (text : Bytes) :
    splice expand 0 text (finder.findAll text) =
      interleave (gaps text 0 (finder.findAll text)) ((finder.findAll text).map expand) :=
  splice_eq_interleave expand (fun _ _ => Nat.zero_le _) (finder.findFrom_scanned text 0).ordered

theorem interleave_findAll (finder : Finder) (text : Bytes) :
    interleave (gaps text 0 (finder.findAll text))
      ((finder.findAll text).map Occurrence.text) = text := by
  refine interleave_gaps_text (fun _ _ => Nat.zero_le _)
    (finder.findFrom_scanned text 0).ordered fun occurrence picked => ?_
  obtain ⟨choice, best⟩ := bestFit_of_mem_findAll picked
  exact best.here

end Finder

namespace Rule

theorem replace?_eq_none_iff {rule : Rule} {text : Bytes} :
    rule.replace? text = none ↔ rule.finder.findAll text = [] := by
  unfold replace?
  cases rule.finder.findAll text <;> simp

theorem replace?_eq (rule : Rule) (text : Bytes) :
    rule.replace? text =
      if rule.finder.findAll text = [] then none else some (rule.apply text) := by
  unfold apply replace?
  cases rule.finder.findAll text <;> simp

theorem apply_eq_splice (rule : Rule) (text : Bytes) :
    rule.apply text = splice rule.expand 0 text (rule.finder.findAll text) := by
  unfold apply replace?
  cases rule.finder.findAll text with
  | nil => rfl
  | cons occurrence later => rfl

/-- What a rule does to a text is told by its regular expression, as it is read, and by
what it puts in the place of an occurrence. -/
theorem apply_eq_splice_regex (rule : Rule) (text : Bytes) :
    (readRegex? rule.finder.regex).map (fun finder =>
        splice rule.expand 0 text (finder.findAll text)) = some (rule.apply text) := by
  have found := Finder.findFrom_readRegex? rule.full text 0
  rw [apply_eq_splice, Finder.findAll, ← Option.map_some, ← found, Option.map_map]
  rfl

end Rule

/-- Occurrences have choices, and their choices spell what replaces them. -/
theorem Rule.exists_replacements {rule : Rule} {text : Bytes} {found : List Occurrence}
    (fits : ∀ occurrence ∈ found, ∃ choice,
      rule.finder.BestFit text occurrence.start choice occurrence.pieces) :
    ∃ (choices : List (List Nat)) (replacements : List String),
      List.Forall₂ (fun occurrence choice =>
        rule.finder.BestFit text occurrence.start choice occurrence.pieces) found choices ∧
      List.Forall₂ (fun choice replacement => rule.table.target.spell? choice = some replacement)
        choices replacements ∧
      found.map rule.expand = replacements.map utf8 := by
  induction found with
  | nil => exact ⟨[], [], .nil, .nil, rfl⟩
  | cons occurrence later ih =>
      obtain ⟨choice, best⟩ := fits occurrence (.head _)
      obtain ⟨replacement, spelled, expanded⟩ := Rule.expand_eq best.picked
      obtain ⟨choices, replacements, bests, allSpelled, allExpanded⟩ :=
        ih fun other member => fits other (.tail _ member)
      refine ⟨choice :: choices, replacement :: replacements, .cons best bests,
        .cons spelled allSpelled, ?_⟩
      rw [List.map_cons, List.map_cons, expanded, allExpanded]

/-- What a rule makes of a text, told by the choice of each occurrence and by the
target text that the choice spells. -/
structure Rule.Replaces (rule : Rule) (target : Pattern) (text : Bytes)
    (choices : List (List Nat)) (replacements : List String) : Prop where
  chosen : List.Forall₂ (fun occurrence choice =>
    rule.finder.BestFit text occurrence.start choice occurrence.pieces)
    (rule.finder.findAll text) choices
  spelled : List.Forall₂ (fun choice replacement => target.spell? choice = some replacement)
    choices replacements
  kept : text = interleave (gaps text 0 (rule.finder.findAll text))
    ((rule.finder.findAll text).map Occurrence.text)
  replaced : rule.apply text = interleave (gaps text 0 (rule.finder.findAll text))
    (replacements.map utf8)
  untouched : rule.replace? text = none ↔ rule.finder.findAll text = []
  unchanged : rule.finder.findAll text = [] → rule.apply text = text

/-- Applying a rule keeps the gaps between the occurrences byte by byte and puts the
target text of its choice in the place of each occurrence.  A text is left alone
exactly if nothing occurs in it. -/
theorem Rule.apply_eq_interleave {source target : String} {boundary : Bool} {rule : Rule}
    (made : Rule.ofExprs source target boundary = .ok rule) (text : Bytes) :
    ∃ searched replacing choices replacements,
      Pattern.parse source = .ok searched ∧ Pattern.parse target = .ok replacing ∧
        rule.finder = ⟨searched, boundary⟩ ∧
        rule.Replaces replacing text choices replacements := by
  obtain ⟨read, readTarget, rfl⟩ := Rule.ofExprs_eq_ok_iff.mp made
  obtain ⟨choices, replacements, chosen, spelled, expanded⟩ :=
    Rule.exists_replacements fun occurrence picked => Finder.bestFit_of_mem_findAll picked
  have kept := (rule.finder.interleave_findAll text).symm
  have replaced : rule.apply text = interleave (gaps text 0 (rule.finder.findAll text))
      (replacements.map utf8) := by
    rw [Rule.apply_eq_splice, Finder.splice_findAll, expanded]
  have unchanged : rule.finder.findAll text = [] → rule.apply text = text := by
    intro nothing
    rw [Rule.apply_eq_splice, nothing, splice]
  exact ⟨rule.finder.pattern, rule.table.target, choices, replacements, read, readTarget, rfl,
    chosen, spelled, kept, replaced, Rule.replace?_eq_none_iff, unchanged⟩

/-- Branches that overlap, an empty one, a target with a dollar sign and a byte that
is no text. -/
theorem Rule.apply_eq_interleave_overlapping :
    ∃ rule, Rule.ofExprs "a,ab/bc,c," "1,2/3,4,$1" false = .ok rule ∧
      rule.apply (utf8 "xabc abd" ++ [0xFF] ++ utf8 "a") =
        utf8 "x13 1$1bd" ++ [0xFF] ++ utf8 "1$1" ∧
      ∃ searched replacing choices replacements,
        Pattern.parse "a,ab/bc,c," = .ok searched ∧
          Pattern.parse "1,2/3,4,$1" = .ok replacing ∧ rule.finder = ⟨searched, false⟩ ∧
          rule.Replaces replacing (utf8 "xabc abd" ++ [0xFF] ++ utf8 "a") choices
            replacements := by
  have made : Rule.ofExprs "a,ab/bc,c," "1,2/3,4,$1" false =
      .ok (.ofTable ⟨[.mk [("a", "1"), ("ab", "2")],
        .mk [("bc", "3"), ("c", "4"), ("", "$1")]]⟩ false) := by
    decide +kernel
  exact ⟨_, made, by decide, Rule.apply_eq_interleave made _⟩

/-- Both rules do the same to a text, and to the same bytes of it. -/
structure Rule.Agree (first second : Rule) (text : Bytes) : Prop where
  replaced : first.replace? text = second.replace? text
  applied : first.apply text = second.apply text
  spans : (first.finder.findAll text).map (fun occurrence => (occurrence.start, occurrence.stop)) =
    (second.finder.findAll text).map fun occurrence => (occurrence.start, occurrence.stop)

/-- Rules that agree and also find the same pieces. -/
structure Rule.Alike (first second : Rule) (text : Bytes) : Prop
    extends Rule.Agree first second text where
  found : first.finder.findAll text = second.finder.findAll text

/-- The rule of two patterns, however they are written.  They can be written. -/
structure Rule.MadeOf (rule : Rule) (source target : Pattern) (boundary : Bool) : Prop where
  written : Rule.ofExprs source.render target.render boundary = .ok rule
  read : ∀ sourceExpr targetExpr, Pattern.parse sourceExpr = .ok source →
    Pattern.parse targetExpr = .ok target → Rule.ofExprs sourceExpr targetExpr boundary = .ok rule

namespace Rule

variable {first second : Rule} {text : Bytes}

/-- Rules agree if what the one finds answers to what the other finds, with the same ends
and the same expansion. -/
theorem agree_of_findAll {answer : Occurrence → Occurrence}
    (found : first.finder.findAll text = (second.finder.findAll text).map answer)
    (same : ∀ occurrence ∈ second.finder.findAll text,
      (answer occurrence).start = occurrence.start ∧ (answer occurrence).stop = occurrence.stop ∧
        first.expand (answer occurrence) = second.expand occurrence) :
    first.Agree second text := by
  have applied : first.apply text = second.apply text := by
    rw [apply_eq_splice, apply_eq_splice, found, splice_map 0 text same]
  refine ⟨?_, applied, ?_⟩
  · simp only [replace?_eq, applied, found, List.map_eq_nil_iff]
  · rw [found, List.map_map]
    refine List.map_congr_left fun occurrence picked => ?_
    obtain ⟨start, stop, _⟩ := same occurrence picked
    rw [Function.comp_apply, start, stop]

theorem alike_of_hit? (hits : ∀ place, first.finder.hit? text place = second.finder.hit? text place)
    (expands : ∀ occurrence ∈ second.finder.findAll text,
      first.expand occurrence = second.expand occurrence) : first.Alike second text := by
  have found : first.finder.findAll text = second.finder.findAll text := by
    rw [Finder.findAll, Finder.findAll, Finder.findFrom, Finder.findFrom, Finder.hits_eq_map,
      Finder.hits_eq_map, funext hits]
  have answered : first.finder.findAll text = (second.finder.findAll text).map id := by
    rw [found, List.map_id]
  exact ⟨agree_of_findAll answered fun occurrence picked =>
    ⟨rfl, rfl, expands occurrence picked⟩, found⟩

theorem madeOf (rule : Rule) :
    rule.MadeOf rule.finder.pattern rule.table.target rule.finder.boundary := by
  have fullTarget : rule.table.target.isEmpty = false := by
    rw [rule.table.isEmpty_target, rule.searches, rule.full]
  exact ⟨ofExprs_eq_ok_iff.mpr ⟨Pattern.parse_render_of_isEmpty rule.full,
      Pattern.parse_render_of_isEmpty fullTarget, rfl⟩,
    fun _ _ read readTarget => ofExprs_eq_ok_iff.mpr ⟨read, readTarget, rfl⟩⟩

end Rule

/-- The position takes `span` of the text, this part of the text reads as `branch`, and
the table leads from there to `replacing`. -/
structure Rule.Resolves (rule : Rule) (text : Bytes) (occurrence : Occurrence) (position : Nat)
    (span : Nat × Nat) (branch replacing : String) : Prop where
  spanned : occurrence.spans[position]? = some span
  taken : occurrence.pieces[position]? = some (cut text span)
  read : readUtf8? (cut text span) = some branch
  listed : rule.table.lookup position branch = some replacing

section Spans

variable {text : Bytes} {start : Nat} {pieces : List Bytes}

theorem length_spansFrom (start : Nat) (pieces : List Bytes) :
    (Occurrence.spansFrom start pieces).length = pieces.length := by
  induction pieces generalizing start with
  | nil => rfl
  | cons piece rest ih => rw [Occurrence.spansFrom, List.length_cons, List.length_cons, ih]

theorem exists_span {position : Nat} {piece : Bytes} (stands : pieces.flatten <+: text.drop start)
    (taken : pieces[position]? = some piece) :
    ∃ span, (Occurrence.spansFrom start pieces)[position]? = some span ∧ cut text span = piece := by
  rw [← map_cut_spansFrom stands, List.getElem?_map] at taken
  exact Option.map_eq_some_iff.mp taken

end Spans

/-- Each piece is looked up in the pair that the choice of the occurrence picks. -/
theorem Rule.resolves_of_pick {rule : Rule} {text : Bytes} {occurrence : Occurrence}
    {choice : List Nat} {pairs : List (String × String)} {position : Nat}
    (stands : occurrence.text <+: text.drop occurrence.start)
    (picked : pick rule.table.slots choice = some pairs)
    (pieces : occurrence.pieces = pairs.map fun pair => utf8 pair.1)
    (inside : position < rule.table.size) :
    ∃ span branch replacing, rule.Resolves text occurrence position span branch replacing ∧
      (pairs.map Prod.snd)[position]? = some replacing := by
  rw [← rule.table.length_slots] at inside
  obtain ⟨index, pair, _, taken, named⟩ := exists_getElem?_of_pick picked inside
  have piece : occurrence.pieces[position]? = some (utf8 pair.1) := by
    rw [pieces, List.getElem?_map, taken, Option.map_some]
  obtain ⟨span, spanned, cuts⟩ := exists_span stands piece
  refine ⟨span, pair.1, pair.2, ⟨spanned, by rw [cuts, piece], by rw [cuts, readUtf8?_utf8],
    Table.lookup_eq_some_iff.mpr ⟨index, named⟩⟩, ?_⟩
  rw [List.getElem?_map, taken, Option.map_some]

/-- An occurrence that is found has a span for every position of the table; they lie one
after the other within the text.  Every position resolves, and what replaces the
occurrence is what the table leads to, position by position, and nothing else. -/
theorem Rule.expand_of_found {rule : Rule} {text : Bytes} {occurrence : Occurrence}
    (found : occurrence ∈ rule.finder.findAll text) :
    occurrence.spans.length = rule.table.size ∧
      Adjacent occurrence.start occurrence.stop occurrence.spans ∧
      occurrence.stop ≤ text.length ∧
      ∃ replacements : List String, replacements.length = rule.table.size ∧
        rule.expand occurrence = (replacements.map utf8).flatten ∧
        ∀ position < rule.table.size, ∃ span branch replacing,
          rule.Resolves text occurrence position span branch replacing ∧
            replacements[position]? = some replacing := by
  obtain ⟨choice, best⟩ := Finder.bestFit_of_mem_findAll found
  obtain ⟨pairs, picked, pieces⟩ := Rule.exists_pairs best.picked
  have size : pairs.length = rule.table.size :=
    (length_of_pick picked).trans rule.table.length_slots
  have spans : occurrence.spans.length = rule.table.size := by
    rw [Occurrence.spans, length_spansFrom, pieces, List.length_map, size]
  have expanded : rule.expand occurrence = ((pairs.map Prod.snd).map utf8).flatten := by
    rw [Rule.expand_of_pick picked pieces, List.map_map]
    rfl
  exact ⟨spans, adjacent_spansFrom _ _, best.stop_le, pairs.map Prod.snd,
    (List.length_map _).trans size, expanded,
    fun position inside => Rule.resolves_of_pick best.here picked pieces inside⟩

/-- Empty branches in two positions, and bytes on both sides that are no text; the one
before the occurrence could begin its first character. -/
theorem Rule.expand_of_found_between_bytes :
    ∃ rule, Rule.ofExprs "é,/猫,/" "e,x/y,z/w" false = .ok rule ∧
      ⟨1, [utf8 "é", utf8 "猫", []]⟩ ∈ rule.finder.findAll ([0xC3] ++ utf8 "é猫" ++ [0xFF]) ∧
      ∃ replacements : List String, replacements.length = 3 ∧
        rule.expand ⟨1, [utf8 "é", utf8 "猫", []]⟩ = (replacements.map utf8).flatten ∧
        ∀ position < 3, ∃ span branch replacing,
          rule.Resolves ([0xC3] ++ utf8 "é猫" ++ [0xFF]) ⟨1, [utf8 "é", utf8 "猫", []]⟩ position
            span branch replacing ∧ replacements[position]? = some replacing := by
  have made : Rule.ofExprs "é,/猫,/" "e,x/y,z/w" false =
      .ok (.ofTable ⟨[.mk [("é", "e"), ("", "x")], .mk [("猫", "y"), ("", "z")],
        .mk [("", "w")]]⟩ false) := by
    decide +kernel
  have found : ⟨1, [utf8 "é", utf8 "猫", []]⟩ ∈
      (Rule.ofTable ⟨[.mk [("é", "e"), ("", "x")], .mk [("猫", "y"), ("", "z")],
        .mk [("", "w")]]⟩ false).finder.findAll ([0xC3] ++ utf8 "é猫" ++ [0xFF]) := by
    decide +kernel
  obtain ⟨_, _, _, replacements⟩ := Rule.expand_of_found found
  exact ⟨_, made, found, replacements⟩

end WordSubst
