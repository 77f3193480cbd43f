import WordSubst.Proofs.Rule.Splice

namespace WordSubst

/-- The pair of a choice, if it spells something on either side. -/
def Pattern.pair? (source target : Pattern) (choice : List Nat) : Option (String × String) :=
  (source.spell? choice).bind fun text => (target.spell? choice).map (text, ·)

def Pattern.pairs (source target : Pattern) : List (String × String) :=
  (choices source.literals).filterMap (source.pair? target)

/-- The pairs without those whose first part was seen before. -/
def firstPairs [DecidableEq α] : (seen : List α) → List (α × β) → List (α × β)
  | _, [] => []
  | seen, pair :: rest =>
    if pair.1 ∈ seen then firstPairs seen rest else pair :: firstPairs (pair.1 :: seen) rest

/-- The cross product of a source and a target: each text of the source once. -/
def Pattern.product (source target : Pattern) : List (String × String) :=
  firstPairs [] (source.pairs target)

section FirstPairs

variable [DecidableEq α]

theorem mem_of_mem_firstPairs {seen : List α} {list : List (α × β)} {pair : α × β}
    (member : pair ∈ firstPairs seen list) : pair ∈ list ∧ pair.1 ∉ seen := by
  induction list generalizing seen with
  | nil => cases member
  | cons first rest ih =>
      rw [firstPairs] at member
      split at member
      · obtain ⟨listed, fresh⟩ := ih member
        exact ⟨.tail _ listed, fresh⟩
      · rename_i fresh
        rcases List.mem_cons.mp member with rfl | later
        · exact ⟨.head _, fresh⟩
        · obtain ⟨listed, notSeen⟩ := ih later
          exact ⟨.tail _ listed, fun before => notSeen (.tail _ before)⟩

theorem nodup_firstPairs (seen : List α) (list : List (α × β)) :
    ((firstPairs seen list).map Prod.fst).Nodup := by
  induction list generalizing seen with
  | nil => exact List.nodup_nil
  | cons first rest ih =>
      rw [firstPairs]
      split
      · exact ih seen
      · have absent : first.1 ∉ (firstPairs (first.1 :: seen) rest).map Prod.fst := by
          intro repeated
          obtain ⟨pair, later, same⟩ := List.mem_map.mp repeated
          exact (mem_of_mem_firstPairs later).2 (same ▸ .head _)
        exact List.nodup_cons.mpr ⟨absent, ih _⟩

/-- A pair is kept, after what is kept of those before it, if none of them shares
its first part. -/
theorem firstPairs_append_cons {seen : List α} {before : List (α × β)} {pair : α × β}
    (fresh : pair.1 ∉ seen) (first : ∀ other ∈ before, other.1 ≠ pair.1)
    (after : List (α × β)) :
    ∃ rest, firstPairs seen (before ++ pair :: after) =
      firstPairs seen before ++ pair :: rest := by
  induction before generalizing seen with
  | nil => exact ⟨_, if_neg fresh⟩
  | cons other before ih =>
      have different := first other (.head _)
      have firstRest := fun another member => first another (.tail _ member)
      rw [List.cons_append, firstPairs, firstPairs]
      split
      · exact ih fresh firstRest
      · have freshRest : pair.1 ∉ other.1 :: seen := by
          simp only [List.mem_cons, not_or]
          exact ⟨different.symm, fresh⟩
        obtain ⟨rest, kept⟩ := ih freshRest firstRest
        exact ⟨rest, by rw [kept, List.cons_append]⟩

end FirstPairs

theorem pair?_eq_some_iff {searched replacing : Pattern} {choice : List Nat}
    {pair : String × String} :
    searched.pair? replacing choice = some pair ↔
      searched.spell? choice = some pair.1 ∧ replacing.spell? choice = some pair.2 := by
  simp only [Pattern.pair?, Option.bind_eq_some_iff, Option.map_eq_some_iff]
  constructor
  · intro ⟨spelled, found, replacement, foundTarget, same⟩
    subst same
    exact ⟨found, foundTarget⟩
  · intro ⟨found, foundTarget⟩
    exact ⟨pair.1, found, pair.2, foundTarget, rfl⟩

theorem mem_choices_iff_spell? {pattern : Pattern} {choice : List Nat} :
    choice ∈ choices pattern.literals ↔ ∃ spelled, pattern.spell? choice = some spelled := by
  rw [mem_choices_iff]
  constructor
  · intro choosable
    obtain ⟨literals, picked⟩ := choosable
    exact ⟨String.join literals, by rw [Pattern.spell?, picked, Option.map_some]⟩
  · intro spells
    obtain ⟨spelled, found⟩ := spells
    obtain ⟨literals, picked, _⟩ := Option.map_eq_some_iff.mp found
    exact ⟨literals, picked⟩

theorem Rule.exists_target_text {rule : Rule} {choice : List Nat} {spelled : String}
    (found : rule.finder.pattern.spell? choice = some spelled) :
    ∃ replacement, rule.table.target.spell? choice = some replacement := by
  rw [← rule.searches, Table.spell?_source, Option.map_eq_some_iff] at found
  obtain ⟨pairs, picked, _⟩ := found
  exact ⟨_, by rw [Table.spell?_target, picked, Option.map_some]⟩

theorem Rule.product_ne_nil (rule : Rule) :
    rule.finder.pattern.product rule.table.target ≠ [] := by
  have slots : ∀ slot ∈ rule.finder.pattern.literals, slot ≠ [] := by
    intro slot listed
    obtain ⟨position, member, rfl⟩ := List.mem_map.mp listed
    exact (Pattern.isEmpty_eq_false_iff.mp rule.full).2 position member
  obtain ⟨choice, chosen⟩ := List.exists_mem_of_ne_nil _ (choices_ne_nil slots)
  obtain ⟨spelled, found⟩ := mem_choices_iff_spell?.mp chosen
  obtain ⟨replacement, foundTarget⟩ := Rule.exists_target_text found
  have listed : (spelled, replacement) ∈ rule.finder.pattern.pairs rule.table.target :=
    List.mem_filterMap.mpr ⟨choice, chosen, pair?_eq_some_iff.mpr ⟨found, foundTarget⟩⟩
  rw [Pattern.product]
  cases pairs : rule.finder.pattern.pairs rule.table.target with
  | nil => simp [pairs] at listed
  | cons pair rest => simp [firstPairs]

/-- The rule of the one position that lists the cross product. -/
def Rule.product (rule : Rule) : Rule :=
  .ofTable ⟨[⟨rule.finder.pattern.product rule.table.target, nodup_firstPairs _ _⟩]⟩
    rule.finder.boundary
    (by simp [Pattern.isEmpty, Table.source, Column.source, rule.product_ne_nil])

theorem Pattern.render_single (position : Position) :
    (Pattern.mk [position]).render = position.render := by
  simp [Pattern.render]

theorem Rule.ofExprs_product (rule : Rule) :
    Rule.ofExprs
      (Position.mk ((rule.finder.pattern.product rule.table.target).map Prod.fst)).render
      (Position.mk ((rule.finder.pattern.product rule.table.target).map Prod.snd)).render
      rule.finder.boundary = .ok rule.product := by
  rw [← Pattern.render_single, ← Pattern.render_single]
  exact rule.product.madeOf.written

theorem pick_single_eq_some_iff {slot : List α} {choice : List Nat} {picked : List α} :
    pick [slot] choice = some picked ↔
      ∃ index a, choice = [index] ∧ picked = [a] ∧ slot[index]? = some a := by
  rw [pick_cons_eq_some_iff]
  constructor
  · intro ⟨index, rest, a, later, chosen, taken, named, found⟩
    obtain ⟨rfl, rfl⟩ := pick_nil_eq_some_iff.mp found
    exact ⟨index, a, chosen, taken, named⟩
  · intro ⟨index, a, chosen, taken, named⟩
    exact ⟨index, [], a, [], chosen, taken, named, rfl⟩

theorem Finder.fit_single_iff {position : Position} {boundary : Bool} {text : Bytes} {place : Nat}
    {choice : List Nat} {pieces : List Bytes} :
    (Finder.mk ⟨[position]⟩ boundary).Fit text place choice pieces ↔
      ∃ index spelled, choice = [index] ∧ pieces = [utf8 spelled] ∧
        position.branches[index]? = some spelled ∧ Stands boundary text place (utf8 spelled) := by
  have slots : (Finder.mk ⟨[position]⟩ boundary).slots = [position.branches.map utf8] := rfl
  constructor
  · intro ⟨stands, picked⟩
    rw [slots, pick_single_eq_some_iff] at picked
    obtain ⟨index, piece, rfl, rfl, named⟩ := picked
    rw [List.getElem?_map, Option.map_eq_some_iff] at named
    obtain ⟨spelled, named, rfl⟩ := named
    exact ⟨index, spelled, rfl, rfl, named, by simpa using stands⟩
  · intro ⟨index, spelled, chosen, taken, named, stands⟩
    subst chosen taken
    refine ⟨by simpa using stands, ?_⟩
    rw [slots, pick_single_eq_some_iff]
    exact ⟨index, utf8 spelled, rfl, rfl, by rw [List.getElem?_map, named, Option.map_some]⟩

/-- Whether a choice fits depends only on what it spells. -/
theorem Finder.exists_fit_iff {finder : Finder} {text : Bytes} {place : Nat} {choice : List Nat} :
    (∃ pieces, finder.Fit text place choice pieces) ↔
      ∃ spelled, finder.pattern.spell? choice = some spelled ∧
        Stands finder.boundary text place (utf8 spelled) := by
  constructor
  · intro fits
    obtain ⟨pieces, fit⟩ := fits
    obtain ⟨literals, picked, rfl⟩ := pick_slots_eq_some_iff.mp fit.picked
    refine ⟨String.join literals, by rw [Pattern.spell?, picked, Option.map_some], ?_⟩
    rw [utf8_join]
    exact fit.toStands
  · intro spells
    obtain ⟨spelled, found, stands⟩ := spells
    obtain ⟨literals, picked, rfl⟩ := Option.map_eq_some_iff.mp found
    rw [utf8_join] at stands
    exact ⟨literals.map utf8, stands, pick_slots_eq_some_iff.mpr ⟨literals, picked, rfl⟩⟩

section Product

variable {finder : Finder} {rule : Rule} {text : Bytes} {place : Nat} {choice : List Nat}
  {pieces : List Bytes}

/-- What a lesser choice than that of the best fit spells does not stand. -/
theorem Finder.BestFit.not_stands_of_lt (best : finder.BestFit text place choice pieces)
    {other : List Nat} {spelled : String} (less : other < choice)
    (found : finder.pattern.spell? other = some spelled) :
    ¬ Stands finder.boundary text place (utf8 spelled) := by
  intro stands
  obtain ⟨otherPieces, fit⟩ := exists_fit_iff.mpr ⟨spelled, found, stands⟩
  exact absurd (best.least other otherPieces fit) (not_le_of_gt less)

/-- The pair of the best fit is kept in the product, and no pair before it fits. -/
theorem Finder.BestFit.product_split (best : finder.BestFit text place choice pieces)
    {replacing : Pattern} {spelled replacement : String}
    (found : finder.pattern.spell? choice = some spelled)
    (foundTarget : replacing.spell? choice = some replacement)
    (stands : Stands finder.boundary text place (utf8 spelled)) :
    ∃ before after, finder.pattern.product replacing = before ++ (spelled, replacement) :: after ∧
      ∀ pair ∈ before, ¬ Stands finder.boundary text place (utf8 pair.1) := by
  have listed := mem_choices_iff_spell?.mpr ⟨spelled, found⟩
  obtain ⟨lesser, greater, split⟩ := List.append_of_mem listed
  have here : finder.pattern.pair? replacing choice = some (spelled, replacement) :=
    pair?_eq_some_iff.mpr ⟨found, foundTarget⟩
  have pairs : finder.pattern.pairs replacing =
      lesser.filterMap (finder.pattern.pair? replacing) ++
        (spelled, replacement) :: greater.filterMap (finder.pattern.pair? replacing) := by
    rw [Pattern.pairs, split, List.filterMap_append, List.filterMap_cons_some here]
  -- All choices before that of the best fit are lesser, so none of their texts stands.
  have ordered := pairwise_choices finder.pattern.literals
  rw [split, List.pairwise_append] at ordered
  have unfit : ∀ pair ∈ lesser.filterMap (finder.pattern.pair? replacing),
      ¬ Stands finder.boundary text place (utf8 pair.1) := by
    intro pair member
    obtain ⟨other, listed, paired⟩ := List.mem_filterMap.mp member
    have less : other < choice := ordered.2.2 other listed choice (.head _)
    exact best.not_stands_of_lt less (pair?_eq_some_iff.mp paired).1
  have fresh : (spelled, replacement).1 ∉ ([] : List String) := List.not_mem_nil
  have first : ∀ pair ∈ lesser.filterMap (finder.pattern.pair? replacing),
      pair.1 ≠ (spelled, replacement).1 := by
    intro pair member same
    exact unfit pair member (same ▸ stands)
  obtain ⟨rest, kept⟩ := firstPairs_append_cons fresh first
    (greater.filterMap (finder.pattern.pair? replacing))
  refine ⟨_, rest, by rw [Pattern.product, pairs, kept], ?_⟩
  intro pair member
  exact unfit pair (mem_of_mem_firstPairs member).1

namespace Rule

theorem fit_product_iff :
    rule.product.finder.Fit text place choice pieces ↔
      ∃ index pair, choice = [index] ∧ pieces = [utf8 pair.1] ∧
        (rule.finder.pattern.product rule.table.target)[index]? = some pair ∧
          Stands rule.finder.boundary text place (utf8 pair.1) := by
  constructor
  · intro fit
    obtain ⟨index, spelled, rfl, rfl, listed, stands⟩ := Finder.fit_single_iff.mp fit
    obtain ⟨pair, named, rfl⟩ : ∃ pair,
        (rule.finder.pattern.product rule.table.target)[index]? = some pair ∧ pair.1 = spelled := by
      rwa [← Option.map_eq_some_iff, ← List.getElem?_map]
    exact ⟨index, pair, rfl, rfl, named, stands⟩
  · rintro ⟨index, pair, rfl, rfl, listed, stands⟩
    have named : ((rule.finder.pattern.product rule.table.target).map Prod.fst)[index]? =
        some pair.1 := by rw [List.getElem?_map, listed, Option.map_some]
    exact Finder.fit_single_iff.mpr ⟨index, pair.1, rfl, rfl, named, stands⟩

/-- Where the pattern has a best fit the product has one too, of the same bytes and
with the same replacement. -/
theorem bestFit_product (best : rule.finder.BestFit text place choice pieces) :
    ∃ index, rule.product.finder.BestFit text place [index] [pieces.flatten] ∧
      rule.product.table.target.spell? [index] = rule.table.target.spell? choice := by
  obtain ⟨literals, picked, spelledPieces⟩ := Finder.pick_slots_eq_some_iff.mp best.picked
  have found : rule.finder.pattern.spell? choice = some (String.join literals) := by
    rw [Pattern.spell?, picked, Option.map_some]
  have same : utf8 (String.join literals) = pieces.flatten := by rw [utf8_join, spelledPieces]
  have stands : Stands rule.finder.boundary text place (utf8 (String.join literals)) :=
    same ▸ best.toStands
  obtain ⟨replacement, foundTarget⟩ := exists_target_text found
  obtain ⟨before, after, split, unfit⟩ := best.product_split found foundTarget stands
  refine ⟨before.length, ⟨?_, ?_⟩, ?_⟩
  · have named : (rule.finder.pattern.product rule.table.target)[before.length]? =
        some (String.join literals, replacement) := by
      rw [split, List.getElem?_append_right (Nat.le_refl _), Nat.sub_self, List.getElem?_cons_zero]
    rw [← same]
    exact fit_product_iff.mpr ⟨_, _, rfl, rfl, named, stands⟩
  · intro other otherPieces fit
    obtain ⟨index, pair, rfl, rfl, listed, standsToo⟩ := fit_product_iff.mp fit
    have noEarlier : before.length ≤ index := by
      refine Nat.le_of_not_lt fun earlier => ?_
      rw [split, List.getElem?_append_left earlier] at listed
      exact unfit pair (List.mem_of_getElem? listed) standsToo
    exact cons_le_cons_of noEarlier fun _ => le_refl _
  · have named : ((rule.finder.pattern.product rule.table.target).map Prod.snd)[before.length]? =
        some replacement := by simp [split]
    rw [foundTarget, Pattern.spell?, Option.map_eq_some_iff]
    exact ⟨[replacement], pick_single_eq_some_iff.mpr ⟨_, _, rfl, rfl, named⟩, by simp⟩

theorem fit_of_fit_product (fit : rule.product.finder.Fit text place choice pieces) :
    ∃ choice pieces, rule.finder.Fit text place choice pieces := by
  obtain ⟨index, pair, rfl, rfl, listed, stands⟩ := fit_product_iff.mp fit
  obtain ⟨member, _⟩ := mem_of_mem_firstPairs (List.mem_of_getElem? listed)
  obtain ⟨other, _, paired⟩ := List.mem_filterMap.mp member
  exact ⟨other, Finder.exists_fit_iff.mpr ⟨pair.1, (pair?_eq_some_iff.mp paired).1, stands⟩⟩

/-- The search for the product finds what the search for the pattern finds, in one piece. -/
theorem hit?_product (rule : Rule) (text : Bytes) (place : Nat) :
    rule.product.finder.hit? text place =
      (rule.finder.hit? text place).map fun pieces => [pieces.flatten] := by
  cases found : rule.finder.hit? text place with
  | none =>
      apply Finder.hit?_eq_none_iff.mpr
      intro choice pieces fit
      obtain ⟨other, otherPieces, otherFit⟩ := fit_of_fit_product fit
      exact Finder.hit?_eq_none_iff.mp found other otherPieces otherFit
  | some pieces =>
      obtain ⟨choice, best⟩ := Finder.hit?_eq_some_iff.mp found
      obtain ⟨index, bestProduct, _⟩ := bestFit_product best
      exact Finder.hit?_eq_some_iff.mpr ⟨[index], bestProduct⟩

end Rule

def Occurrence.whole (occurrence : Occurrence) : Occurrence :=
  ⟨occurrence.start, [occurrence.text]⟩

theorem Occurrence.stop_whole (occurrence : Occurrence) :
    occurrence.whole.stop = occurrence.stop := by
  simp [whole, stop, text]

namespace Rule

theorem findAll_product (rule : Rule) (text : Bytes) :
    rule.product.finder.findAll text = (rule.finder.findAll text).map Occurrence.whole := by
  have hits : rule.product.finder.hits text =
      (rule.finder.hits text).map (Option.map fun pieces => [pieces.flatten]) := by
    rw [Finder.hits_eq_map, Finder.hits_eq_map, List.map_map]
    exact List.map_congr_left fun place _ => rule.hit?_product text place
  simp only [Finder.findAll, Finder.findFrom, List.drop_zero, hits]
  exact scan_map (fun pieces => by simp) 0 0 false _

theorem expand_product {occurrence : Occurrence}
    (best : rule.finder.BestFit text occurrence.start choice occurrence.pieces) :
    rule.product.expand occurrence.whole = rule.expand occurrence := by
  obtain ⟨replacement, spelled, expanded⟩ := expand_eq best.picked
  obtain ⟨index, bestProduct, same⟩ := bestFit_product best
  have picked : pick rule.product.finder.slots [index] = some occurrence.whole.pieces :=
    bestProduct.picked
  obtain ⟨productReplacement, productSpelled, productExpanded⟩ := expand_eq picked
  have equal : productReplacement = replacement :=
    Option.some.inj (productSpelled.symm.trans (same.trans spelled))
  rw [productExpanded, expanded, equal]

theorem agree_product (rule : Rule) (text : Bytes) : rule.product.Agree rule text := by
  refine agree_of_findAll (rule.findAll_product text) fun occurrence picked => ?_
  obtain ⟨choice, best⟩ := Finder.bestFit_of_mem_findAll picked
  exact ⟨rfl, occurrence.stop_whole, expand_product best⟩

end Rule

end Product

/-- A rule does what the rule of a single position does whose branches are the texts
of its source, against the target texts of the same choices. -/
theorem Rule.exists_single_position {source target : String} {boundary : Bool} {rule : Rule}
    (made : Rule.ofExprs source target boundary = .ok rule) :
    ∃ searched replacing single,
      Pattern.parse source = .ok searched ∧ Pattern.parse target = .ok replacing ∧
        Rule.ofExprs (Position.mk ((searched.product replacing).map Prod.fst)).render
          (Position.mk ((searched.product replacing).map Prod.snd)).render boundary =
            .ok single ∧
        ∀ text, single.Agree rule text := by
  obtain ⟨read, readTarget, rfl⟩ := Rule.ofExprs_eq_ok_iff.mp made
  exact ⟨rule.finder.pattern, rule.table.target, rule.product, read, readTarget,
    rule.ofExprs_product, rule.agree_product⟩

/-- Two choices spell `abc`, and only the first of them is listed. -/
theorem Rule.exists_single_position_overlapping :
    ∃ rule, Rule.ofExprs "a,ab/bc,c," "1,2/3,4,$1" true = .ok rule ∧
      Pattern.product ⟨[⟨["a", "ab"]⟩, ⟨["bc", "c", ""]⟩]⟩ ⟨[⟨["1", "2"]⟩, ⟨["3", "4", "$1"]⟩]⟩ =
        [("abc", "13"), ("ac", "14"), ("a", "1$1"), ("abbc", "23"), ("ab", "2$1")] ∧
      ∃ searched replacing single,
        Pattern.parse "a,ab/bc,c," = .ok searched ∧
          Pattern.parse "1,2/3,4,$1" = .ok replacing ∧
          Rule.ofExprs (Position.mk ((searched.product replacing).map Prod.fst)).render
            (Position.mk ((searched.product replacing).map Prod.snd)).render true =
              .ok single ∧
          ∀ text, single.Agree rule text := by
  have made : Rule.ofExprs "a,ab/bc,c," "1,2/3,4,$1" true =
      .ok (.ofTable ⟨[.mk [("a", "1"), ("ab", "2")],
        .mk [("bc", "3"), ("c", "4"), ("", "$1")]]⟩ true) := by
    decide +kernel
  exact ⟨_, made, by decide, Rule.exists_single_position made⟩

end WordSubst
