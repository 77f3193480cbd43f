import WordSubst.Proofs.Rule.Splice
import WordSubst.Proofs.Text.CharEdge

namespace WordSubst

/-- The branches in the given order: first the one with the first index, and so on. -/
def Position.reorder (order : List Nat) (position : Position) : Position :=
  ⟨order.filterMap fun index => position.branches[index]?⟩

def Pattern.reorder (orders : List (List Nat)) (pattern : Pattern) : Pattern :=
  ⟨orders.zipWith Position.reorder pattern.positions⟩

/-- There is an order for each position, and it lists every branch once. -/
def Pattern.Orders (pattern : Pattern) (orders : List (List Nat)) : Prop :=
  List.Forall₂ (fun order position => order.Perm (List.range position.size)) orders
    pattern.positions

/-- No branch begins another. -/
def Position.PrefixFree (position : Position) : Prop :=
  ∀ first ∈ position.branches, ∀ second ∈ position.branches,
    first.toList <+: second.toList → first = second

instance (position : Position) : Decidable position.PrefixFree :=
  inferInstanceAs (Decidable (∀ first ∈ position.branches, ∀ second ∈ position.branches,
    first.toList <+: second.toList → first = second))

def Pattern.PrefixFree (pattern : Pattern) : Prop :=
  ∀ position ∈ pattern.positions, position.PrefixFree

instance (pattern : Pattern) : Decidable pattern.PrefixFree :=
  inferInstanceAs (Decidable (∀ position ∈ pattern.positions, position.PrefixFree))

theorem filterMap_getElem?_range (list : List α) :
    ((List.range list.length).filterMap fun index => list[index]?) = list := by
  induction list with
  | nil => rfl
  | cons a list ih =>
      rw [List.length_cons, List.range_succ_eq_map,
        List.filterMap_cons_some List.getElem?_cons_zero, List.filterMap_map]
      exact congrArg (a :: ·) ih

theorem Position.perm_reorder {position : Position} {order : List Nat}
    (permutes : order.Perm (List.range position.size)) :
    (position.reorder order).branches.Perm position.branches := by
  have whole := permutes.filterMap fun index => position.branches[index]?
  rwa [Position.size, filterMap_getElem?_range] at whole

/-- The pairs of a column in another order: source and target are ordered alike. -/
theorem Column.exists_reorder (column : Column) {order : List Nat}
    (permutes : order.Perm (List.range column.source.size)) :
    ∃ other : Column, other.source = column.source.reorder order ∧
      other.target = column.target.reorder order ∧ other.pairs.Perm column.pairs := by
  have perm := permutes.filterMap fun index => column.pairs[index]?
  rw [Position.size, Column.source, List.length_map, filterMap_getElem?_range] at perm
  refine ⟨⟨_, (perm.map Prod.fst).nodup_iff.mpr column.nodup⟩, ?_, ?_, perm⟩
  · simp only [Column.source, Position.reorder, List.map_filterMap, List.getElem?_map]
  · simp only [Column.target, Position.reorder, List.map_filterMap, List.getElem?_map]

/-- No branch is listed twice, so the order of the pairs is of no account. -/
theorem Column.lookup_eq_of_perm {column other : Column} (perm : column.pairs.Perm other.pairs)
    (branch : String) : column.pairs.lookup branch = other.pairs.lookup branch := by
  refine Option.ext fun replacing => ?_
  rw [Column.lookup_eq_some_iff, Column.lookup_eq_some_iff, perm.mem_iff]

theorem Table.exists_reorder (table : Table) {orders : List (List Nat)}
    (permutes : table.source.Orders orders) :
    ∃ other : Table, other.source = table.source.reorder orders ∧
      other.target = table.target.reorder orders ∧
        List.Forall₂ (fun column other => column.pairs.Perm other.pairs) other.columns
          table.columns := by
  obtain ⟨columns⟩ := table
  simp only [Pattern.Orders, Table.source, List.forall₂_map_right_iff] at permutes
  induction permutes with
  | nil => exact ⟨⟨[]⟩, rfl, rfl, .nil⟩
  | @cons order column orders columns here later ih =>
      obtain ⟨first, source, target, perm⟩ := column.exists_reorder here
      obtain ⟨⟨rest⟩, sources, targets, perms⟩ := ih
      refine ⟨⟨first :: rest⟩, ?_, ?_, .cons perm perms⟩
      · simpa [Table.source, Pattern.reorder, source] using sources
      · simpa [Table.target, Pattern.reorder, target] using targets

theorem Table.lookup_eq_of_perm {table other : Table}
    (perm : List.Forall₂ (fun column other => column.pairs.Perm other.pairs) table.columns
      other.columns) : table.lookup = other.lookup := by
  have lookups : table.columns.map (fun column branch => column.pairs.lookup branch) =
      other.columns.map fun column branch => column.pairs.lookup branch := by
    rw [← List.forall₂_eq_eq_eq, List.forall₂_map_left_iff, List.forall₂_map_right_iff]
    exact perm.imp fun _ _ perm => funext (Column.lookup_eq_of_perm perm)
  have looked : ∀ (table : Table) position branch, table.lookup position branch =
      (table.columns.map fun column branch => column.pairs.lookup branch)[position]?.bind
        (· branch) := by
    intro table position branch
    rw [List.getElem?_map, Option.bind_map]
    rfl
  funext position branch
  rw [looked, looked, lookups]

section Pattern

variable {searched : Pattern} {orders : List (List Nat)}

theorem Pattern.Orders.perm_branches (permutes : searched.Orders orders) :
    List.Forall₂ (fun position other => position.branches.Perm other.branches)
      (searched.reorder orders).positions searched.positions := by
  obtain ⟨searched⟩ := searched
  simp only [Pattern.Orders, Pattern.reorder] at permutes ⊢
  induction permutes with
  | nil => exact .nil
  | cons permutes later ih => exact .cons (Position.perm_reorder permutes) ih

/-- Whether a pattern is empty depends only on the numbers of its branches. -/
theorem Pattern.isEmpty_eq_of_sizes {pattern other : Pattern}
    (sizes : pattern.positions.map Position.size = other.positions.map Position.size) :
    pattern.isEmpty = other.isEmpty := by
  have counted : ∀ pattern : Pattern, pattern.isEmpty =
      ((pattern.positions.map Position.size).isEmpty ||
        (pattern.positions.map Position.size).any (· == 0)) := by
    intro pattern
    rw [Pattern.isEmpty, List.isEmpty_map, List.any_map]
    congr 2
    funext position
    cases branches : position.branches <;> simp [Position.size, branches]
  rw [counted, counted, sizes]

theorem Pattern.Orders.isEmpty_reorder (permutes : searched.Orders orders) :
    (searched.reorder orders).isEmpty = searched.isEmpty := by
  apply Pattern.isEmpty_eq_of_sizes
  rw [← List.forall₂_eq_eq_eq, List.forall₂_map_left_iff, List.forall₂_map_right_iff]
  exact permutes.perm_branches.imp fun _ _ perm => perm.length_eq

theorem Pattern.Orders.perm_slots (permutes : searched.Orders orders) (boundary : Bool) :
    List.Forall₂ List.Perm (Finder.mk (searched.reorder orders) boundary).slots
      (Finder.mk searched boundary).slots := by
  rw [Finder.slots, Finder.slots, List.forall₂_map_left_iff, List.forall₂_map_right_iff]
  exact permutes.perm_branches.imp fun _ _ perm => perm.map utf8

theorem Pattern.PrefixFree.slots (free : searched.PrefixFree) {boundary : Bool} {slot : List Bytes}
    (listed : slot ∈ (Finder.mk searched boundary).slots) {first second : Bytes}
    (member : first ∈ slot) (otherMember : second ∈ slot) (begins : first <+: second) :
    first = second := by
  obtain ⟨position, inPattern, rfl⟩ := List.mem_map.mp listed
  obtain ⟨branch, inPosition, rfl⟩ := List.mem_map.mp member
  obtain ⟨other, otherInPosition, rfl⟩ := List.mem_map.mp otherMember
  have chars := utf8_prefix_iff.mp begins
  rw [free position inPattern branch inPosition other otherInPosition chars]

end Pattern

section Unique

variable {slots others : List (List Bytes)} {pieces otherPieces : List Bytes} {text : Bytes}

theorem forall₂_mem_iff_of_perm (same : List.Forall₂ List.Perm slots others) :
    List.Forall₂ (· ∈ ·) pieces slots ↔ List.Forall₂ (· ∈ ·) pieces others := by
  induction same generalizing pieces with
  | nil => rfl
  | cons perm same ih => simp only [List.forall₂_cons_right_iff, perm.mem_iff, ih]

/-- Two ways that stand at one place take the same pieces. -/
theorem pieces_eq_of_prefixFree
    (free : ∀ slot ∈ slots, ∀ first ∈ slot, ∀ second ∈ slot, first <+: second → first = second)
    (listed : List.Forall₂ (· ∈ ·) pieces slots)
    (otherListed : List.Forall₂ (· ∈ ·) otherPieces slots) (stands : pieces.flatten <+: text)
    (otherStands : otherPieces.flatten <+: text) : pieces = otherPieces := by
  induction listed generalizing otherPieces text with
  | nil =>
      cases otherListed
      rfl
  | @cons piece slot pieces slots member listed ih =>
      cases otherListed with
      | @cons other _ others _ otherMember otherListed =>
          obtain ⟨freeHere, freeLater⟩ := List.forall_mem_cons.mp free
          rw [List.flatten_cons] at stands otherStands
          have begins := (List.prefix_append piece pieces.flatten).trans stands
          have otherBegins := (List.prefix_append other others.flatten).trans otherStands
          -- Of two branches that stand at one place the one begins the other.
          have same : piece = other := by
            rcases List.prefix_or_prefix_of_prefix begins otherBegins with shorter | longer
            · exact freeHere piece member other otherMember shorter
            · exact (freeHere other otherMember piece member longer).symm
          subst same
          obtain ⟨after, rfl⟩ := begins
          have onward := (List.prefix_append_right_inj piece).mp stands
          have otherOnward := (List.prefix_append_right_inj piece).mp otherStands
          rw [ih freeLater otherListed onward otherOnward]

end Unique

namespace Finder

variable {finder : Finder} {text : Bytes} {place : Nat} {pieces : List Bytes}

theorem exists_choice_fit_iff :
    (∃ choice, finder.Fit text place choice pieces) ↔
      Stands finder.boundary text place pieces.flatten ∧
        List.Forall₂ (· ∈ ·) pieces finder.slots := by
  rw [← exists_pick_iff]
  constructor
  · rintro ⟨choice, stands, picked⟩
    exact ⟨stands, choice, picked⟩
  · rintro ⟨stands, choice, picked⟩
    exact ⟨choice, stands, picked⟩

/-- If all that fits at a place takes the same pieces, no preference is needed. -/
theorem hit?_eq_some_iff_of_unique
    (unique : ∀ pieces otherPieces, (∃ choice, finder.Fit text place choice pieces) →
      (∃ choice, finder.Fit text place choice otherPieces) → pieces = otherPieces) :
    finder.hit? text place = some pieces ↔ ∃ choice, finder.Fit text place choice pieces := by
  constructor
  · intro found
    obtain ⟨choice, best⟩ := hit?_eq_some_iff.mp found
    exact ⟨choice, best.toFit⟩
  · intro fits
    obtain ⟨choice, fit⟩ := fits
    cases found : finder.hit? text place with
    | none => exact absurd fit (hit?_eq_none_iff.mp found choice pieces)
    | some otherPieces =>
        obtain ⟨other, best⟩ := hit?_eq_some_iff.mp found
        rw [unique pieces otherPieces ⟨choice, fit⟩ ⟨other, best.toFit⟩]

end Finder

section Reordered

variable {searched replacing : Pattern} {orders : List (List Nat)}

theorem Finder.hit?_reorder (free : searched.PrefixFree) (permutes : searched.Orders orders)
    (boundary : Bool) (text : Bytes) (place : Nat) :
    (Finder.mk (searched.reorder orders) boundary).hit? text place =
      (Finder.mk searched boundary).hit? text place := by
  have fits : ∀ pieces,
      (∃ choice, (Finder.mk (searched.reorder orders) boundary).Fit text place choice pieces) ↔
        ∃ choice, (Finder.mk searched boundary).Fit text place choice pieces := by
    intro pieces
    rw [exists_choice_fit_iff, exists_choice_fit_iff,
      forall₂_mem_iff_of_perm (permutes.perm_slots boundary)]
  have unique : ∀ pieces otherPieces,
      (∃ choice, (Finder.mk searched boundary).Fit text place choice pieces) →
      (∃ choice, (Finder.mk searched boundary).Fit text place choice otherPieces) →
      pieces = otherPieces := by
    intro pieces otherPieces fit otherFit
    obtain ⟨stands, listed⟩ := exists_choice_fit_iff.mp fit
    obtain ⟨otherStands, otherListed⟩ := exists_choice_fit_iff.mp otherFit
    exact pieces_eq_of_prefixFree (fun _ slot _ first _ second => free.slots slot first second)
      listed otherListed stands.here otherStands.here
  refine Option.ext fun pieces => ?_
  rw [hit?_eq_some_iff_of_unique unique, ← fits]
  apply hit?_eq_some_iff_of_unique
  intro pieces otherPieces fit otherFit
  exact unique _ _ ((fits _).mp fit) ((fits _).mp otherFit)

/-- Where no branch of a position begins another, the branches may be listed in any
order, in the source and the target alike: it gives a rule, and one that does the same. -/
theorem Rule.alike_reorder {source target : String} {boundary : Bool} {rule : Rule}
    (made : Rule.ofExprs source target boundary = .ok rule)
    (read : Pattern.parse source = .ok searched) (readTarget : Pattern.parse target = .ok replacing)
    (free : searched.PrefixFree) (permutes : searched.Orders orders) :
    ∃ other : Rule, other.MadeOf (searched.reorder orders) (replacing.reorder orders) boundary ∧
      ∀ text, other.Alike rule text := by
  obtain ⟨finder, target⟩ := (Rule.ofExprs_eq_ok_iff_of_parse read readTarget).mp made
  have source : rule.table.source = searched := by rw [rule.searches, finder]
  obtain ⟨table, sources, targets, perm⟩ := rule.table.exists_reorder (source ▸ permutes)
  rw [source] at sources
  rw [target] at targets
  have full : (searched.reorder orders).isEmpty = false := by
    rw [permutes.isEmpty_reorder, Pattern.isEmpty_of_parse read]
  let other : Rule := ⟨⟨searched.reorder orders, boundary⟩, table, sources, full⟩
  have expands : other.expand = rule.expand :=
    Rule.expand_congr perm.length_eq (Table.lookup_eq_of_perm perm)
  refine ⟨other, targets ▸ other.madeOf, fun text => ?_⟩
  refine Rule.alike_of_hit? (fun place => ?_) fun occurrence _ => by rw [expands]
  rw [finder]
  exact Finder.hit?_reorder free permutes boundary text place

/-- Each position in an order of its own.  The empty branch is alone in its position. -/
theorem Rule.alike_reorder_three_positions :
    ∃ rule other : Rule,
      Rule.ofExprs "ab,b,é/s,t/" "1,2,3/4,5/6" true = .ok rule ∧
        other.MadeOf ⟨[⟨["é", "ab", "b"]⟩, ⟨["t", "s"]⟩, ⟨[""]⟩]⟩
          ⟨[⟨["3", "1", "2"]⟩, ⟨["5", "4"]⟩, ⟨["6"]⟩]⟩ true ∧
        ∀ text, other.Alike rule text := by
  have read : Pattern.parse "ab,b,é/s,t/" =
      .ok ⟨[⟨["ab", "b", "é"]⟩, ⟨["s", "t"]⟩, ⟨[""]⟩]⟩ := by
    decide +kernel
  have readTarget : Pattern.parse "1,2,3/4,5/6" =
      .ok ⟨[⟨["1", "2", "3"]⟩, ⟨["4", "5"]⟩, ⟨["6"]⟩]⟩ := by
    decide +kernel
  have made : Rule.ofExprs "ab,b,é/s,t/" "1,2,3/4,5/6" true =
      .ok (.ofTable ⟨[.mk [("ab", "1"), ("b", "2"), ("é", "3")], .mk [("s", "4"), ("t", "5")],
        .mk [("", "6")]]⟩ true) := by
    decide +kernel
  have free : Pattern.PrefixFree ⟨[⟨["ab", "b", "é"]⟩, ⟨["s", "t"]⟩, ⟨[""]⟩]⟩ := by decide
  have permutes : Pattern.Orders ⟨[⟨["ab", "b", "é"]⟩, ⟨["s", "t"]⟩, ⟨[""]⟩]⟩
      [[2, 0, 1], [1, 0], [0]] :=
    .cons (by decide) (.cons (by decide) (.cons (by decide) .nil))
  obtain ⟨other, madeOf, alike⟩ := Rule.alike_reorder made read readTarget free permutes
  exact ⟨_, other, made, madeOf, alike⟩

/-- Where a branch begins another, the order matters. -/
example :
    (Rule.ofTable ⟨[.mk [("a", "1"), ("ab", "2")]]⟩ false).apply (utf8 "ab") = utf8 "1b" ∧
      (Rule.ofTable ⟨[.mk [("ab", "2"), ("a", "1")]]⟩ false).apply (utf8 "ab") = utf8 "2" := by
  decide +kernel

end Reordered

end WordSubst
