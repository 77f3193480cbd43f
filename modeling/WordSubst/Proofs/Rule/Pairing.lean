import Mathlib.Data.Set.List
import WordSubst.Proofs.Choice
import WordSubst.Rule

namespace WordSubst

def Pattern.literals (pattern : Pattern) : List (List String) :=
  pattern.positions.map Position.branches

def Pattern.spell? (pattern : Pattern) (choice : List Nat) : Option String :=
  (pick pattern.literals choice).map String.join

/-- The branch at a place of a pattern, if there is one. -/
def Pattern.branch? (pattern : Pattern) (position index : Nat) : Option String :=
  pattern.positions[position]?.bind (·.branches[index]?)

/-- As many branches on either side, and no source branch twice. -/
structure Position.Pairs (source target : Position) : Prop where
  sizes : source.size = target.size
  nodup : source.branches.Nodup

/-- Two positions make a column exactly if they can be paired. -/
theorem Column.exists_iff {source target : Position} :
    (∃ column : Column, column.source = source ∧ column.target = target) ↔
      source.Pairs target := by
  constructor
  · rintro ⟨column, rfl, rfl⟩
    exact ⟨by simp only [Position.size, Column.source, Column.target, List.length_map],
      column.nodup⟩
  · intro pairs
    obtain ⟨sizes, nodup⟩ := pairs
    have sources := List.map_fst_zip (Nat.le_of_eq sizes)
    have targets := List.map_snd_zip (Nat.le_of_eq sizes.symm)
    exact ⟨⟨source.branches.zip target.branches, sources.symm ▸ nodup⟩,
      congrArg Position.mk sources, congrArg Position.mk targets⟩

/-- A branch is looked up in the pair that lists it, since no other pair does. -/
theorem Column.lookup_eq_some_iff {column : Column} {branch replacing : String} :
    column.pairs.lookup branch = some replacing ↔ (branch, replacing) ∈ column.pairs := by
  have nodup := column.nodup
  rw [List.lookup_eq_some_iff]
  constructor
  · rintro ⟨before, after, split, _⟩
    simp [split]
  · intro listed
    obtain ⟨before, after, split⟩ := List.append_of_mem listed
    refine ⟨before, after, split, fun pair earlier => bne_iff_ne.mpr fun same => ?_⟩
    rw [split, List.map_append, List.nodup_append] at nodup
    exact nodup.2.2 pair.1 (List.mem_map_of_mem earlier) branch (by simp) same.symm

namespace Table

variable {table : Table} {position index : Nat} {branch replacing : String}
  {pair : String × String}

def slots (table : Table) : List (List (String × String)) :=
  table.columns.map Column.pairs

def pair? (table : Table) (position index : Nat) : Option (String × String) :=
  table.slots[position]?.bind (·[index]?)

theorem length_slots (table : Table) : table.slots.length = table.size :=
  List.length_map _

theorem literals_source (table : Table) :
    table.source.literals = table.slots.map (List.map Prod.fst) := by
  simp only [Pattern.literals, source, slots, List.map_map]
  rfl

theorem literals_target (table : Table) :
    table.target.literals = table.slots.map (List.map Prod.snd) := by
  simp only [Pattern.literals, target, slots, List.map_map]
  rfl

theorem spell?_source (table : Table) (choice : List Nat) :
    table.source.spell? choice =
      (pick table.slots choice).map fun pairs => String.join (pairs.map Prod.fst) := by
  rw [Pattern.spell?, literals_source, pick_map, Option.map_map]
  rfl

theorem spell?_target (table : Table) (choice : List Nat) :
    table.target.spell? choice =
      (pick table.slots choice).map fun pairs => String.join (pairs.map Prod.snd) := by
  rw [Pattern.spell?, literals_target, pick_map, Option.map_map]
  rfl

theorem pair?_eq (table : Table) (position index : Nat) :
    table.pair? position index = table.columns[position]?.bind (·.pairs[index]?) := by
  rw [pair?, slots, List.getElem?_map, Option.bind_map]
  rfl

theorem branch?_source (table : Table) (position index : Nat) :
    table.source.branch? position index = (table.pair? position index).map Prod.fst := by
  rw [pair?_eq, Pattern.branch?, source, List.getElem?_map]
  cases table.columns[position]? <;> simp [Column.source]

theorem branch?_target (table : Table) (position index : Nat) :
    table.target.branch? position index = (table.pair? position index).map Prod.snd := by
  rw [pair?_eq, Pattern.branch?, target, List.getElem?_map]
  cases table.columns[position]? <;> simp [Column.target]

theorem lookup_eq_some_iff :
    table.lookup position branch = some replacing ↔
      ∃ index, table.pair? position index = some (branch, replacing) := by
  simp only [lookup, pair?_eq, Option.bind_eq_some_iff, Column.lookup_eq_some_iff,
    List.mem_iff_getElem?]
  exact ⟨fun ⟨column, found, index, named⟩ => ⟨index, column, found, named⟩,
    fun ⟨index, column, found, named⟩ => ⟨column, found, index, named⟩⟩

theorem replacement_of_pair? (named : table.pair? position index = some pair) :
    table.replacement position (utf8 pair.1) = utf8 pair.2 := by
  have found : table.lookup position pair.1 = some pair.2 := lookup_eq_some_iff.mpr ⟨index, named⟩
  simp only [replacement, readUtf8?_utf8, Option.bind_some, found]

theorem isEmpty_target (table : Table) : table.target.isEmpty = table.source.isEmpty := by
  simp only [Pattern.isEmpty, source, target, List.isEmpty_map, List.any_map]
  congr 2
  funext column
  simp only [Function.comp_apply, Column.source, Column.target, List.isEmpty_map]

theorem exists_ofPatterns_iff {source target : Pattern} :
    (∃ table, Table.ofPatterns source target = .ok table) ↔ source.size = target.size ∧
      ∀ pair ∈ source.positions.zip target.positions, pair.1.Pairs pair.2 := by
  unfold Table.ofPatterns
  by_cases sizes : source.size = target.size
  · have made := Set.ext_iff.mp
      (Set.range_list_map fun column : Column => (column.source, column.target))
      (source.positions.zip target.positions)
    simp only [Set.mem_range, Set.mem_ofPred_eq, Prod.ext_iff, Column.exists_iff] at made
    simp only [sizes, ne_eq, not_true_eq_false, if_false, bind_eq_ok_iff, columnsFrom_eq_ok_iff,
      pure, Except.pure, Except.ok.injEq, true_and, ← made]
    exact ⟨fun ⟨_, columns, paired, _⟩ => ⟨columns, paired⟩,
      fun ⟨columns, paired⟩ => ⟨_, columns, paired, rfl⟩⟩
  · simp [sizes]

end Table

/-- A table is made exactly of two patterns with as many positions, these with as
many branches, and no branch twice in a source position; the target may repeat
branches.  The table leads from each branch of a source position to the branch in
the same place of the target, and from nothing else. -/
theorem Table.ofPatterns_pairing (source target : Pattern) :
    ((∃ table, Table.ofPatterns source target = .ok table) ↔
      source.size = target.size ∧
        (∀ pair ∈ source.positions.zip target.positions, pair.1.size = pair.2.size) ∧
          ∀ position ∈ source.positions, position.branches.Nodup) ∧
    ∀ table, Table.ofPatterns source target = .ok table →
      table.size = source.size ∧
      (∀ position index branch, source.branch? position index = some branch →
        ∃ replacing, target.branch? position index = some replacing ∧
          table.lookup position branch = some replacing) ∧
      ∀ position branch, (∀ index, source.branch? position index ≠ some branch) →
        table.lookup position branch = none := by
  constructor
  · rw [Table.exists_ofPatterns_iff]
    refine and_congr_right fun sizes => ?_
    have firsts : (source.positions.zip target.positions).map Prod.fst = source.positions :=
      List.map_fst_zip (Nat.le_of_eq sizes)
    constructor
    · intro pairs
      refine ⟨fun pair member => (pairs pair member).sizes, ?_⟩
      rw [← firsts, List.forall_mem_map]
      exact fun pair member => (pairs pair member).nodup
    · rintro ⟨counts, nodup⟩ pair member
      exact ⟨counts pair member, nodup pair.1 (List.of_mem_zip member).1⟩
  · intro table made
    obtain ⟨rfl, rfl⟩ := Table.ofPatterns_eq_ok_iff.mp made
    refine ⟨table.size_source.symm, fun position index branch named => ?_,
      fun position branch unlisted => ?_⟩
    · rw [branch?_source, Option.map_eq_some_iff] at named
      obtain ⟨pair, found, rfl⟩ := named
      exact ⟨pair.2, by rw [branch?_target, found, Option.map_some],
        lookup_eq_some_iff.mpr ⟨index, found⟩⟩
    · refine Option.eq_none_iff_forall_ne_some.mpr fun replacing found => ?_
      obtain ⟨index, named⟩ := lookup_eq_some_iff.mp found
      exact unlisted index (by rw [branch?_source, named, Option.map_some])

/-- A branch that stands in both positions, an empty branch, and a target that lists
one branch three times. -/
theorem Table.ofPatterns_pairing_shared_branch :
    ∃ source target table, source = ⟨[⟨["a", "b"]⟩, ⟨["", "a"]⟩]⟩ ∧
      target = ⟨[⟨["x", "x"]⟩, ⟨["x", "b"]⟩]⟩ ∧ Table.ofPatterns source target = .ok table ∧
      table.size = 2 ∧ table.lookup 0 "a" = some "x" ∧ table.lookup 1 "a" = some "b" ∧
      table.lookup 0 "" = none ∧ table.lookup 2 "a" = none := by
  have paired := Table.ofPatterns_pairing ⟨[⟨["a", "b"]⟩, ⟨["", "a"]⟩]⟩
    ⟨[⟨["x", "x"]⟩, ⟨["x", "b"]⟩]⟩
  obtain ⟨table, made⟩ := paired.1.mpr ⟨rfl, by decide, by decide⟩
  obtain ⟨size, found, missing⟩ := paired.2 table made
  obtain ⟨_, named, first⟩ := found 0 0 "a" rfl
  cases named
  obtain ⟨_, named, second⟩ := found 1 1 "a" rfl
  cases named
  refine ⟨_, _, table, rfl, rfl, made, size, first, second, missing 0 "" ?_, missing 2 "a" ?_⟩
  · intro index
    match index with
    | 0 | 1 => decide
    | _ + 2 => exact fun named => nomatch named
  · exact fun _ named => nomatch named

theorem Finder.slots_eq (finder : Finder) :
    finder.slots = finder.pattern.literals.map (List.map utf8) := by
  simp only [slots, Pattern.literals, List.map_map]
  rfl

theorem utf8_join (texts : List String) : utf8 (String.join texts) = (texts.map utf8).flatten := by
  induction texts with
  | nil => simp [String.join]
  | cons text rest ih => simp [ih]

theorem Finder.pick_slots_eq_some_iff {finder : Finder} {choice : List Nat} {pieces : List Bytes} :
    pick finder.slots choice = some pieces ↔
      ∃ literals, pick finder.pattern.literals choice = some literals ∧
        pieces = literals.map utf8 := by
  rw [slots_eq, pick_map, Option.map_eq_some_iff]
  simp only [eq_comm]

namespace Rule

variable {rule : Rule} {choice : List Nat} {pairs : List (String × String)}
  {occurrence : Occurrence}

/-- The rule that searches for the source of a table. -/
def ofTable (table : Table) (boundary : Bool) (full : table.source.isEmpty = false := by rfl) :
    Rule :=
  ⟨⟨table.source, boundary⟩, table, rfl, full⟩

/-- The rule of two expressions searches for what the one is read as and puts in its
place what the other is read as. -/
theorem ofExprs_eq_ok_iff {source target : String} {boundary : Bool} :
    Rule.ofExprs source target boundary = .ok rule ↔
      Pattern.parse source = .ok rule.finder.pattern ∧
        Pattern.parse target = .ok rule.table.target ∧ rule.finder.boundary = boundary := by
  constructor
  -- The matches of `ofExprs` carry proofs, so that each stage has to be split off in turn.
  · intro made
    unfold ofExprs at made
    split at made
    · cases made
    · rename_i searched read
      split at made
      · cases made
      · rename_i replacing readTarget
        split at made
        · cases made
        · rename_i table paired
          cases made
          obtain ⟨_, rfl⟩ := Table.ofPatterns_eq_ok_iff.mp paired
          exact ⟨read, readTarget, rfl⟩
  · rintro ⟨read, readTarget, rfl⟩
    have paired := Table.ofPatterns_eq_ok_iff.mpr ⟨rule.searches, rfl⟩
    unfold ofExprs
    split
    · rename_i unread
      cases read.symm.trans unread
    · rename_i searched readHere
      cases read.symm.trans readHere
      rw [readTarget]
      dsimp only
      split
      · rename_i unpaired
        cases paired.symm.trans unpaired
      · rename_i table pairedHere
        cases paired.symm.trans pairedHere
        rfl

theorem ofExprs_eq_ok_iff_of_parse {source target : String} {searched replacing : Pattern}
    {boundary : Bool} (read : Pattern.parse source = .ok searched)
    (readTarget : Pattern.parse target = .ok replacing) :
    Rule.ofExprs source target boundary = .ok rule ↔
      rule.finder = ⟨searched, boundary⟩ ∧ rule.table.target = replacing := by
  rw [ofExprs_eq_ok_iff, read, readTarget, Except.ok.injEq, Except.ok.injEq]
  constructor
  · rintro ⟨rfl, rfl, rfl⟩
    exact ⟨rfl, rfl⟩
  · rintro ⟨finder, rfl⟩
    rw [finder]
    exact ⟨rfl, rfl, rfl⟩

/-- The pieces that the finder picks are the first parts of the pairs that the same choice
picks from the table. -/
theorem exists_pairs {pieces : List Bytes} (picked : pick rule.finder.slots choice = some pieces) :
    ∃ pairs, pick rule.table.slots choice = some pairs ∧
      pieces = pairs.map fun pair => utf8 pair.1 := by
  rw [Finder.slots_eq, ← rule.searches, Table.literals_source, pick_map, pick_map, Option.map_map,
    Option.map_eq_some_iff] at picked
  obtain ⟨pairs, found, rfl⟩ := picked
  exact ⟨pairs, found, by rw [Function.comp_apply, List.map_map]; rfl⟩

/-- An occurrence that takes the first parts of pairs is expanded to the second parts. -/
theorem expand_of_pick (picked : pick rule.table.slots choice = some pairs)
    (pieces : occurrence.pieces = pairs.map fun pair => utf8 pair.1) :
    rule.expand occurrence = (pairs.map fun pair => utf8 pair.2).flatten := by
  have length : pairs.length = rule.table.size :=
    (length_of_pick picked).trans rule.table.length_slots
  have replaced : (List.range rule.table.size).map (fun position =>
      rule.table.replacement position (occurrence.pieces[position]?.getD [])) =
        pairs.map fun pair => utf8 pair.2 := by
    -- At each position the piece is the first part of the pair that the choice picks there.
    refine List.ext_getElem (by simp [length]) fun position inside _ => ?_
    rw [List.length_map, List.length_range, ← rule.table.length_slots] at inside
    obtain ⟨index, pair, _, taken, named⟩ := exists_getElem?_of_pick picked inside
    have piece : occurrence.pieces[position]? = some (utf8 pair.1) := by
      rw [pieces, List.getElem?_map, taken, Option.map_some]
    rw [List.getElem_map, List.getElem_map, List.getElem_range, piece, Option.getD_some,
      Table.replacement_of_pair? named, (List.getElem?_eq_some_iff.mp taken).2]
  rw [expand, List.flatMap_def, replaced]

theorem expand_congr {other : Rule} (sizes : rule.table.size = other.table.size)
    (lookups : rule.table.lookup = other.table.lookup) : rule.expand = other.expand := by
  funext occurrence
  simp only [expand, Table.replacement, sizes, lookups]

/-- An occurrence is expanded to the target text of its choice. -/
theorem expand_eq (picked : pick rule.finder.slots choice = some occurrence.pieces) :
    ∃ replacement, rule.table.target.spell? choice = some replacement ∧
      rule.expand occurrence = utf8 replacement := by
  obtain ⟨pairs, found, pieces⟩ := exists_pairs picked
  refine ⟨String.join (pairs.map Prod.snd), by rw [Table.spell?_target, found, Option.map_some], ?_⟩
  rw [expand_of_pick found pieces, utf8_join, List.map_map]
  rfl

end Rule

end WordSubst
