import WordSubst.Finder

namespace WordSubst

/-- The pairs of one position: its source branches, none of them twice, each with the
target branch that replaces it. -/
@[ext] structure Column where
  pairs : List (String × String)
  nodup : (pairs.map Prod.fst).Nodup := by decide
  deriving DecidableEq

namespace Column

def source (column : Column) : Position :=
  ⟨column.pairs.map Prod.fst⟩

def target (column : Column) : Position :=
  ⟨column.pairs.map Prod.snd⟩

theorem pairs_eq_zip (column : Column) :
    column.pairs = column.source.branches.zip column.target.branches :=
  List.zip_of_prod rfl rfl

end Column

structure Table where
  columns : List Column
  deriving DecidableEq

namespace Table

def size (table : Table) : Nat :=
  table.columns.length

def source (table : Table) : Pattern :=
  ⟨table.columns.map Column.source⟩

def target (table : Table) : Pattern :=
  ⟨table.columns.map Column.target⟩

theorem size_source (table : Table) : table.source.size = table.size :=
  List.length_map _

theorem size_target (table : Table) : table.target.size = table.size :=
  List.length_map _

def lookup (table : Table) (position : Nat) (branch : String) : Option String :=
  table.columns[position]?.bind (·.pairs.lookup branch)

/-- The bytes that replace the piece taken by a position.  A piece that the table does
not list is kept. -/
def replacement (table : Table) (position : Nat) (piece : Bytes) : Bytes :=
  match (readUtf8? piece).bind (table.lookup position ·) with
  | some target => utf8 target
  | none => piece

end Table

/-- The first element that repeats one before it, or one of `seen`. -/
def firstRepeat? [DecidableEq α] : (seen : List α) → List α → Option α
  | _, [] => none
  | seen, a :: rest => if a ∈ seen then some a else firstRepeat? (a :: seen) rest

theorem firstRepeat?_eq_none_iff [DecidableEq α] {seen list : List α} :
    firstRepeat? seen list = none ↔ list.Nodup ∧ ∀ a ∈ list, a ∉ seen := by
  induction list generalizing seen with
  | nil => simp [firstRepeat?]
  | cons a rest ih =>
      by_cases repeats : a ∈ seen
      · simp [firstRepeat?, repeats]
      · rw [firstRepeat?, if_neg repeats, ih, List.nodup_cons]
        simp only [List.mem_cons, not_or, forall_eq_or_imp]
        refine ⟨fun ⟨nodup, fresh⟩ => ?_, fun ⟨⟨absent, nodup⟩, _, fresh⟩ => ?_⟩
        · exact ⟨⟨fun member => (fresh a member).1 rfl, nodup⟩, repeats,
            fun b member => (fresh b member).2⟩
        · exact ⟨nodup, fun b member => ⟨fun same => absent (same ▸ member), fresh b member⟩⟩

theorem nodup_of_firstRepeat? {source target : Position} (sizes : source.size = target.size)
    (distinct : firstRepeat? [] source.branches = none) :
    ((source.branches.zip target.branches).map Prod.fst).Nodup := by
  rw [List.map_fst_zip (Nat.le_of_eq sizes)]
  exact (firstRepeat?_eq_none_iff.mp distinct).1

/-- Pairs the branches of the positions with the given index.  Their numbers are
compared first, and only then is a repeated branch looked for. -/
def Column.ofPositions (index : Nat) (source target : Position) : Except Error Column :=
  if sizes : source.size = target.size then
    match distinct : firstRepeat? [] source.branches with
    | some branch => .error (.duplicateBranch index branch)
    | none => .ok ⟨source.branches.zip target.branches, nodup_of_firstRepeat? sizes distinct⟩
  else .error (.branchCounts index source.size target.size)

/-- The columns of positions counted from `index`; the first faulty position is
the one reported. -/
def columnsFrom (index : Nat) : List (Position × Position) → Except Error (List Column)
  | [] => .ok []
  | (source, target) :: rest => do
    let column ← Column.ofPositions index source target
    let columns ← columnsFrom (index + 1) rest
    return column :: columns

def Table.ofPatterns (source target : Pattern) : Except Error Table :=
  if source.size ≠ target.size then
    .error (.positionCounts source.size target.size)
  else do
    let columns ← columnsFrom 0 (source.positions.zip target.positions)
    return ⟨columns⟩

theorem bind_eq_ok_iff {x : Except ε α} {next : α → Except ε β} {b : β} :
    x >>= next = .ok b ↔ ∃ a, x = .ok a ∧ next a = .ok b := by
  cases x with
  | error fault => simp [bind, Except.bind]
  | ok a => simp [bind, Except.bind]

theorem Column.ofPositions_eq_ok_iff {index : Nat} {source target : Position} {column : Column} :
    Column.ofPositions index source target = .ok column ↔
      column.source = source ∧ column.target = target := by
  constructor
  · intro made
    unfold Column.ofPositions at made
    split at made
    · rename_i sizes
      split at made
      · cases made
      · cases made
        simp only [Column.source, Column.target, List.map_fst_zip (Nat.le_of_eq sizes),
          List.map_snd_zip (Nat.le_of_eq sizes.symm), and_self]
    · cases made
  · rintro ⟨rfl, rfl⟩
    have sizes : column.source.size = column.target.size := by
      simp only [Position.size, Column.source, Column.target, List.length_map]
    have distinct : firstRepeat? [] column.source.branches = none :=
      firstRepeat?_eq_none_iff.mpr ⟨column.nodup, fun _ _ => List.not_mem_nil⟩
    unfold Column.ofPositions
    rw [dif_pos sizes]
    split
    · rename_i repeats
      cases distinct.symm.trans repeats
    · exact congrArg Except.ok (Column.ext column.pairs_eq_zip.symm)

theorem columnsFrom_eq_ok_iff {index : Nat} {pairs : List (Position × Position)}
    {columns : List Column} :
    columnsFrom index pairs = .ok columns ↔
      columns.map (fun column => (column.source, column.target)) = pairs := by
  induction pairs generalizing index columns with
  | nil => rw [columnsFrom, Except.ok.injEq, List.map_eq_nil_iff, eq_comm]
  | cons pair rest ih =>
      simp only [columnsFrom, bind_eq_ok_iff, Column.ofPositions_eq_ok_iff, ih, pure, Except.pure,
        Except.ok.injEq, List.map_eq_cons_iff, Prod.ext_iff]
      constructor
      · rintro ⟨column, ⟨source, target⟩, later, paired, rfl⟩
        exact ⟨column, later, rfl, ⟨source, target⟩, paired⟩
      · rintro ⟨column, later, rfl, paired, rest⟩
        exact ⟨column, paired, later, rest, rfl⟩

/-- The table of two patterns is the one that has them as its source and its target. -/
theorem Table.ofPatterns_eq_ok_iff {source target : Pattern} {table : Table} :
    Table.ofPatterns source target = .ok table ↔
      table.source = source ∧ table.target = target := by
  unfold Table.ofPatterns
  by_cases sizes : source.size = target.size
  · rw [if_neg (not_not_intro sizes)]
    simp only [bind_eq_ok_iff, columnsFrom_eq_ok_iff, pure, Except.pure, Except.ok.injEq]
    constructor
    · rintro ⟨columns, paired, rfl⟩
      have sources := congrArg (List.map Prod.fst) paired
      have targets := congrArg (List.map Prod.snd) paired
      rw [List.map_map, List.map_fst_zip (Nat.le_of_eq sizes)] at sources
      rw [List.map_map, List.map_snd_zip (Nat.le_of_eq sizes.symm)] at targets
      exact ⟨congrArg Pattern.mk sources, congrArg Pattern.mk targets⟩
    · rintro ⟨rfl, rfl⟩
      exact ⟨table.columns, List.zip_map'.symm, rfl⟩
  · rw [if_pos sizes]
    simp only [reduceCtorEq, false_iff]
    rintro ⟨rfl, rfl⟩
    exact sizes (table.size_source.trans table.size_target.symm)

/-- A finder, and the table in which the pieces of its occurrences are looked up.  The
table lists the branches that are searched for, and there is something to search for. -/
structure Rule where
  finder : Finder
  table : Table
  searches : table.source = finder.pattern := by rfl
  full : finder.pattern.isEmpty = false := by rfl
  deriving DecidableEq

/-- The text with each occurrence expanded.  `text` starts at place `cursor`. -/
def splice (expand : Occurrence → Bytes) (cursor : Nat) (text : Bytes) :
    List Occurrence → Bytes
  | [] => text
  | occurrence :: later =>
    text.take (occurrence.start - cursor) ++ expand occurrence ++
      splice expand occurrence.stop (text.drop (occurrence.stop - cursor)) later

namespace Rule

/-- The rule of two expressions.  The source is read first, then the target, and
then the two are paired. -/
def ofExprs (source target : String) (boundary : Bool) : Except Error Rule :=
  match read : Pattern.parse source with
  | .error error => .error error
  | .ok searched =>
    match Pattern.parse target with
    | .error error => .error error
    | .ok replacing =>
      match paired : Table.ofPatterns searched replacing with
      | .error error => .error error
      | .ok table => .ok ⟨⟨searched, boundary⟩, table, (Table.ofPatterns_eq_ok_iff.mp paired).1,
          Pattern.isEmpty_of_parse read⟩

/-- What replaces an occurrence: the replacements of its pieces, one after the
other. -/
def expand (rule : Rule) (occurrence : Occurrence) : Bytes :=
  (List.range rule.table.size).flatMap fun position =>
    rule.table.replacement position (occurrence.pieces[position]?.getD [])

def replace? (rule : Rule) (text : Bytes) : Option Bytes :=
  match rule.finder.findAll text with
  | [] => none
  | found => some (splice rule.expand 0 text found)

def apply (rule : Rule) (text : Bytes) : Bytes :=
  (rule.replace? text).getD text

end Rule

end WordSubst
