import Mathlib.Data.List.InsertIdx
import Mathlib.Data.List.Nodup
import WordSubst.Proofs.Rule.Splice
import WordSubst.Proofs.Text.CharEdge

namespace WordSubst

def Position.without (dead : Nat) (position : Position) : Position :=
  ⟨position.branches.eraseIdx dead⟩

/-- The branch at the index is listed after one that begins it. -/
structure Position.Shadowed (position : Position) (dead : Nat) (branch : String) : Prop where
  named : position.branches[dead]? = some branch
  begun : ∃ first ∈ position.branches.take dead, first.toList <+: branch.toList

/-- Where the element at the index is when that at `dead` has been taken out. -/
def indexWithout (dead index : Nat) : Nat :=
  if index < dead then index else index - 1

theorem getElem?_eraseIdx_indexWithout {dead index : Nat} (apart : index ≠ dead) (list : List α) :
    (list.eraseIdx dead)[indexWithout dead index]? = list[index]? := by
  unfold indexWithout
  rw [List.getElem?_eraseIdx]
  by_cases less : index < dead
  · rw [if_pos less, if_pos less]
  · have later : ¬ index - 1 < dead := by omega
    have onward : index - 1 + 1 = index := by omega
    rw [if_neg less, if_neg later, onward]

theorem findSome?_eraseIdx {find : α → Option β} {list : List α} {dead : Nat} {a first : α}
    (named : list[dead]? = some a) (earlier : first ∈ list.take dead)
    (covered : find first = none → find a = none) :
    (list.eraseIdx dead).findSome? find = list.findSome? find := by
  obtain ⟨inside, rfl⟩ := List.getElem?_eq_some_iff.mp named
  have split := List.take_append_drop dead list
  rw [List.drop_eq_getElem_cons inside] at split
  calc (list.eraseIdx dead).findSome? find
      = ((list.take dead).findSome? find).or ((list.drop (dead + 1)).findSome? find) := by
        rw [List.eraseIdx_eq_take_drop_succ, List.findSome?_append]
    _ = ((list.take dead).findSome? find).or
          ((list[dead] :: list.drop (dead + 1)).findSome? find) := by
        cases found : (list.take dead).findSome? find with
        | some b => rfl
        | none =>
            have passed := covered (List.findSome?_eq_none_iff.mp found first earlier)
            rw [List.findSome?_cons, passed]
    _ = list.findSome? find := by rw [← List.findSome?_append, split]

theorem Finder.hit?_congr_ways {finder other : Finder} {text : Bytes} {place : Nat}
    (boundary : finder.boundary = other.boundary) (ways : finder.ways text = other.ways text) :
    finder.hit? text place = other.hit? text place := by
  have gates : finder.gates text = other.gates text := by
    rw [Finder.gates, Finder.gates, boundary]
  rw [Finder.hit?_eq, Finder.hit?_eq, gates, ways]

/-- The ends of a text every place of which may be one. -/
def everyEnd (text : Bytes) : List Way :=
  List.replicate (text.length + 1) (some [])

theorem Finder.ends_unbounded (pattern : Pattern) (text : Bytes) :
    (Finder.mk pattern false).ends text = everyEnd text :=
  List.map_replicate

section Ways

variable {branches : List Bytes} {dead : Nat} {branch first : Bytes}

/-- With nothing to follow, a branch is taken if it stands. -/
theorem wayAfter_everyEnd_eq_none_iff {text : Bytes} :
    wayAfter branch text (everyEnd text) = none ↔ ¬ branch <+: text := by
  have aligned : (everyEnd text).length = text.length + 1 := List.length_replicate
  constructor
  · intro passed stands
    have ended : (everyEnd text)[branch.length]? = some (some []) :=
      List.getElem?_replicate.trans (if_pos (Nat.lt_succ_of_le stands.length_le))
    cases passed.symm.trans ((wayAfter_eq_some_iff aligned).mpr ⟨stands, ended⟩)
  · intro unfit
    refine Option.eq_none_iff_forall_ne_some.mpr fun pieces taken => unfit ?_
    exact ((wayAfter_eq_some_iff aligned).mp taken).1

theorem preferred_eraseIdx (named : branches[dead]? = some branch)
    (earlier : first ∈ branches.take dead) (begins : first <+: branch) (text : Bytes) :
    preferred (branches.eraseIdx dead) text (everyEnd text) =
      preferred branches text (everyEnd text) := by
  apply findSome?_eraseIdx named earlier
  rw [Option.map_eq_none_iff, Option.map_eq_none_iff, wayAfter_everyEnd_eq_none_iff,
    wayAfter_everyEnd_eq_none_iff]
  exact fun unfit stands => unfit (begins.trans stands)

theorem throughPosition_eraseIdx (named : branches[dead]? = some branch)
    (earlier : first ∈ branches.take dead) (begins : first <+: branch) (text : Bytes) :
    throughPosition (branches.eraseIdx dead) text (everyEnd text) =
      throughPosition branches text (everyEnd text) := by
  induction text with
  | nil => exact congrArg (fun way => [way]) (preferred_eraseIdx named earlier begins [])
  | cons byte text ih =>
      rw [throughPosition, throughPosition, preferred_eraseIdx named earlier begins]
      exact congrArg (_ :: ·) ih

end Ways

section Last

variable {earlier : List Position} {last : Position} {dead place : Nat} {branch : String}
  {text : Bytes}

theorem Finder.slots_concat (boundary : Bool) :
    (Finder.mk ⟨earlier ++ [last]⟩ boundary).slots =
      (Finder.mk ⟨earlier⟩ boundary).slots ++ [last.branches.map utf8] := by
  rw [Finder.slots, List.map_append]
  rfl

/-- A branch of the last position in bytes, and one before it that begins it. -/
theorem Position.Shadowed.slot (shadowed : last.Shadowed dead branch) :
    (last.branches.map utf8)[dead]? = some (utf8 branch) ∧
      ∃ first ∈ (last.branches.map utf8).take dead, first <+: utf8 branch := by
  obtain ⟨named, first, listed, begins⟩ := shadowed
  rw [List.getElem?_map, named, ← List.map_take]
  exact ⟨rfl, utf8 first, List.mem_map_of_mem listed, utf8_prefix_iff.mpr begins⟩

theorem Position.Shadowed.hit?_without (shadowed : last.Shadowed dead branch) (text : Bytes)
    (place : Nat) :
    (Finder.mk ⟨earlier ++ [last.without dead]⟩ false).hit? text place =
      (Finder.mk ⟨earlier ++ [last]⟩ false).hit? text place := by
  obtain ⟨named, first, listed, begins⟩ := shadowed.slot
  have through : throughPosition ((last.without dead).branches.map utf8) text (everyEnd text) =
      throughPosition (last.branches.map utf8) text (everyEnd text) := by
    rw [Position.without, ← List.eraseIdx_map]
    exact throughPosition_eraseIdx named listed begins text
  refine Finder.hit?_congr_ways rfl ?_
  rw [Finder.ways, Finder.ways, Finder.slots_concat, Finder.slots_concat, List.foldr_append,
    List.foldr_append, Finder.ends_unbounded, Finder.ends_unbounded]
  exact congrArg (fun known => List.foldr _ known _) through

/-- What fits with some branch at the end fits with one that begins it. -/
theorem Finder.Fit.shorten {rest : List Nat} {index other : Nat} {before : List Bytes}
    {piece shorter : Bytes}
    (fit : (Finder.mk ⟨earlier ++ [last]⟩ false).Fit text place (rest ++ [index])
      (before ++ [piece]))
    (found : pick (Finder.mk ⟨earlier⟩ false).slots rest = some before)
    (named : (last.branches.map utf8)[other]? = some shorter) (begins : shorter <+: piece) :
    (Finder.mk ⟨earlier ++ [last]⟩ false).Fit text place (rest ++ [other])
      (before ++ [shorter]) := by
  have here : (before ++ [shorter]).flatten <+: (before ++ [piece]).flatten := by
    rw [List.flatten_append, List.flatten_append, List.flatten_singleton, List.flatten_singleton]
    exact (List.prefix_append_right_inj before.flatten).mpr begins
  refine ⟨⟨fit.inside, here.trans fit.here, nofun⟩, ?_⟩
  rw [Finder.slots_concat]
  exact pick_concat_eq_some_iff.mpr ⟨_, _, _, _, rfl, rfl, found, named⟩

/-- The shadowed branch is not chosen, since the one that begins it stands there too. -/
theorem Position.Shadowed.chosen (shadowed : last.Shadowed dead branch) {choice : List Nat}
    {pieces : List Bytes}
    (best : (Finder.mk ⟨earlier ++ [last]⟩ false).BestFit text place choice pieces) :
    ∃ rest index, choice = rest ++ [index] ∧ index ≠ dead ∧
      pieces.getLast? = (last.branches.map utf8)[index]? := by
  obtain ⟨named, first, listed, begins⟩ := shadowed.slot
  have picked := best.picked
  rw [Finder.slots_concat] at picked
  obtain ⟨rest, index, before, piece, rfl, rfl, found, namedPiece⟩ :=
    pick_concat_eq_some_iff.mp picked
  refine ⟨rest, index, rfl, fun same => ?_, by rw [List.getLast?_concat, namedPiece]⟩
  rw [same] at best namedPiece
  cases named.symm.trans namedPiece
  obtain ⟨lesser, namedFirst⟩ := List.mem_iff_getElem?.mp listed
  rw [List.getElem?_take, Option.ite_none_right_eq_some] at namedFirst
  have fit := best.toFit.shorten found namedFirst.2 begins
  have less : rest ++ [lesser] < rest ++ [dead] :=
    List.append_left_lt (List.cons_lt_cons_iff.mpr (.inl namedFirst.1))
  exact absurd (best.least _ _ fit) (not_le_of_gt less)

theorem Position.Shadowed.getLast?_ne (shadowed : last.Shadowed dead branch)
    (nodup : last.branches.Nodup) {index : Nat} {pieces : List Bytes} (apart : index ≠ dead)
    (taken : pieces.getLast? = (last.branches.map utf8)[index]?) :
    pieces.getLast? ≠ some (utf8 branch) := by
  intro same
  have named := shadowed.slot.1
  have inside := (List.getElem?_eq_some_iff.mp named).1
  have distinct : (last.branches.map utf8).Nodup := List.Nodup.map utf8_injective nodup
  rw [taken, ← named] at same
  exact apart ((List.getElem?_inj inside distinct).mp same.symm).symm

end Last

section Without

variable {earlier others : List Position} {last lastTarget : Position} {dead index : Nat}
  {branch : String}

def Column.without (dead : Nat) (column : Column) : Column :=
  ⟨column.pairs.eraseIdx dead, by rw [← List.eraseIdx_map]; exact column.nodup.eraseIdx dead⟩

theorem Column.source_without (dead : Nat) (column : Column) :
    (column.without dead).source = column.source.without dead := by
  simp only [Column.source, Column.without, Position.without, List.eraseIdx_map]

theorem Column.target_without (dead : Nat) (column : Column) :
    (column.without dead).target = column.target.without dead := by
  simp only [Column.target, Column.without, Position.without, List.eraseIdx_map]

/-- If both patterns have a last position, the table has a last column. -/
theorem Table.exists_concat {table : Table} (source : table.source = ⟨earlier ++ [last]⟩)
    (target : table.target = ⟨others ++ [lastTarget]⟩) :
    ∃ before column, table = ⟨before ++ [column]⟩ ∧
      before.map Column.source = earlier ∧ column.source = last ∧
      before.map Column.target = others ∧ column.target = lastTarget := by
  obtain ⟨columns⟩ := table
  simp only [Table.source, Table.target, Pattern.mk.injEq] at source target
  obtain ⟨before, rest, rfl, sources, sourceLast⟩ := List.map_eq_append_iff.mp source
  obtain ⟨column, rfl, rfl⟩ := List.map_eq_singleton_iff.mp sourceLast
  rw [List.map_append, List.map_singleton] at target
  obtain ⟨targets, targetLast⟩ := List.append_inj' target rfl
  exact ⟨before, column, rfl, sources, rfl, targets, List.singleton_inj.mp targetLast⟩

/-- A choice of another branch picks the same pairs once its last index is adjusted. -/
theorem Table.pick_slots_without (apart : index ≠ dead) (before : List Column) (column : Column)
    (rest : List Nat) :
    pick (Table.mk (before ++ [column.without dead])).slots (rest ++ [indexWithout dead index]) =
      pick (Table.mk (before ++ [column])).slots (rest ++ [index]) := by
  simp only [Table.slots, List.map_append, List.map_singleton]
  exact pick_concat_congr (getElem?_eraseIdx_indexWithout apart column.pairs) _ _

theorem Position.Shadowed.isEmpty_without (shadowed : last.Shadowed dead branch)
    (full : (Pattern.mk (earlier ++ [last])).isEmpty = false) :
    (Pattern.mk (earlier ++ [last.without dead])).isEmpty = false := by
  obtain ⟨first, listed, _⟩ := shadowed.begun
  have kept : first ∈ (last.without dead).branches := by
    rw [Position.without, List.eraseIdx_eq_take_drop_succ]
    exact List.mem_append_left _ listed
  rw [Pattern.isEmpty_eq_false_iff] at full ⊢
  refine ⟨by simp, fun position inPattern => ?_⟩
  rcases List.mem_append.mp inPattern with before | isLast
  · exact full.2 position (List.mem_append_left _ before)
  · cases List.mem_singleton.mp isLast
    exact List.ne_nil_of_mem kept

theorem Rule.expand_without {rule other : Rule} {before : List Column} {column : Column}
    (columns : rule.table = ⟨before ++ [column]⟩)
    (otherColumns : other.table = ⟨before ++ [column.without dead]⟩)
    {occurrence : Occurrence} {rest : List Nat} (apart : index ≠ dead)
    (picked : pick rule.finder.slots (rest ++ [index]) = some occurrence.pieces) :
    other.expand occurrence = rule.expand occurrence := by
  obtain ⟨pairs, found, pieces⟩ := Rule.exists_pairs picked
  have otherFound : pick other.table.slots (rest ++ [indexWithout dead index]) = some pairs := by
    rw [← found, columns, otherColumns, Table.pick_slots_without apart]
  rw [Rule.expand_of_pick found pieces, Rule.expand_of_pick otherFound pieces]

/-- A branch of the last position that comes after one that begins it is never taken
where words need not be whole, and the rule without it does the same. -/
theorem Rule.shadowed_branch_dead {source target : String} {rule : Rule}
    (made : Rule.ofExprs source target false = .ok rule)
    (read : Pattern.parse source = .ok ⟨earlier ++ [last]⟩)
    (readTarget : Pattern.parse target = .ok ⟨others ++ [lastTarget]⟩)
    (shadowed : last.Shadowed dead branch) :
    (∀ text, ∀ occurrence ∈ rule.finder.findAll text,
      occurrence.pieces.getLast? ≠ some (utf8 branch) ∧
        ∃ rest index, index ≠ dead ∧
          rule.finder.BestFit text occurrence.start (rest ++ [index]) occurrence.pieces) ∧
      ∃ other : Rule, other.MadeOf ⟨earlier ++ [last.without dead]⟩
          ⟨others ++ [lastTarget.without dead]⟩ false ∧
        ∀ text, other.Alike rule text := by
  obtain ⟨finder, target⟩ := (Rule.ofExprs_eq_ok_iff_of_parse read readTarget).mp made
  have source : rule.table.source = ⟨earlier ++ [last]⟩ := by rw [rule.searches, finder]
  obtain ⟨before, column, columns, rfl, rfl, rfl, rfl⟩ := Table.exists_concat source target
  let other : Rule := ⟨⟨⟨before.map Column.source ++ [column.source.without dead]⟩, false⟩,
    ⟨before ++ [column.without dead]⟩,
    by simp only [Table.source, List.map_append, List.map_singleton, Column.source_without],
    shadowed.isEmpty_without (Pattern.isEmpty_of_parse read)⟩
  have otherTarget : other.table.target =
      ⟨before.map Column.target ++ [column.target.without dead]⟩ := by
    simp only [other, Table.target, List.map_append, List.map_singleton, Column.target_without]
  refine ⟨?unchosen, other, otherTarget ▸ other.madeOf, ?alike⟩
  case unchosen =>
    rw [finder]
    intro text occurrence found
    obtain ⟨choice, best⟩ := Finder.bestFit_of_mem_findAll found
    obtain ⟨rest, index, rfl, apart, taken⟩ := shadowed.chosen best
    exact ⟨shadowed.getLast?_ne column.nodup apart taken, rest, index, apart, best⟩
  case alike =>
    intro text
    refine Rule.alike_of_hit? (fun place => ?_) fun occurrence found => ?_
    · rw [finder]
      exact shadowed.hit?_without text place
    · rw [finder] at found
      obtain ⟨choice, best⟩ := Finder.bestFit_of_mem_findAll found
      obtain ⟨rest, index, rfl, apart, _⟩ := shadowed.chosen best
      exact Rule.expand_without columns rfl apart (finder ▸ best.picked)

/-- The empty branch begins every branch, here the one at the end. -/
theorem Rule.shadowed_branch_dead_empty_branch :
    ∃ rule other : Rule,
      Rule.ofExprs "a,b/cd,,c" "1,2/3,4,5" false = .ok rule ∧
        (∀ text, ∀ occurrence ∈ rule.finder.findAll text,
          occurrence.pieces.getLast? ≠ some (utf8 "c")) ∧
        other.MadeOf ⟨[⟨["a", "b"]⟩, ⟨["cd", ""]⟩]⟩ ⟨[⟨["1", "2"]⟩, ⟨["3", "4"]⟩]⟩ false ∧
        ∀ text, other.Alike rule text := by
  have read : Pattern.parse "a,b/cd,,c" = .ok ⟨[⟨["a", "b"]⟩] ++ [⟨["cd", "", "c"]⟩]⟩ := by
    decide +kernel
  have readTarget : Pattern.parse "1,2/3,4,5" = .ok ⟨[⟨["1", "2"]⟩] ++ [⟨["3", "4", "5"]⟩]⟩ := by
    decide +kernel
  have made : Rule.ofExprs "a,b/cd,,c" "1,2/3,4,5" false =
      .ok (.ofTable ⟨[.mk [("a", "1"), ("b", "2")],
        .mk [("cd", "3"), ("", "4"), ("c", "5")]]⟩ false) := by
    decide +kernel
  have shadowed : Position.Shadowed ⟨["cd", "", "c"]⟩ 2 "c" :=
    ⟨rfl, "", .tail _ (.head _), List.nil_prefix⟩
  obtain ⟨unchosen, other, madeOf, alike⟩ :=
    Rule.shadowed_branch_dead made read readTarget shadowed
  exact ⟨_, other, made, fun text occurrence found => (unchosen text occurrence found).1, madeOf,
    alike⟩

/-- In another position the longer branch may be taken, and so it may at the end if words
have to be whole. -/
example :
    (Rule.ofTable ⟨[.mk [("a", "1"), ("ab", "2")], .mk [("c", "3")]]⟩ false).apply (utf8 "abc") =
        utf8 "23" ∧
      (Rule.ofTable ⟨[.mk [("a", "1"), ("ab", "2")]]⟩ true).apply (utf8 "ab") = utf8 "2" := by
  decide +kernel

end Without

end WordSubst
