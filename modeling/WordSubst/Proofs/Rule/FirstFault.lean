import WordSubst.Proofs.Rule.Pairing

namespace WordSubst

theorem bind_eq_error_iff {x : Except ε α} {next : α → Except ε β} {fault : ε} :
    x >>= next = .error fault ↔ x = .error fault ∨ ∃ a, x = .ok a ∧ next a = .error fault := by
  cases x with
  | error first => simp [bind, Except.bind]
  | ok a => simp [bind, Except.bind]

/-- Pairing comes as far as the positions at `index`: all before them can be paired. -/
structure Pattern.PairedUpTo (source target : Pattern) (index : Nat)
    (sourcePosition targetPosition : Position) : Prop where
  sourceAt : source.positions[index]? = some sourcePosition
  targetAt : target.positions[index]? = some targetPosition
  earlier : ∀ pair ∈ (source.positions.zip target.positions).take index, pair.1.Pairs pair.2

/-- The fault for which two patterns are not paired.  At one position the numbers of
branches are compared first. -/
inductive Pattern.FirstFault (source target : Pattern) : Error → Prop
  | positionCounts (differ : source.size ≠ target.size) :
      FirstFault source target (.positionCounts source.size target.size)
  | branchCounts {index : Nat} {position other : Position} (counts : source.size = target.size)
      (reached : source.PairedUpTo target index position other)
      (differ : position.size ≠ other.size) :
      FirstFault source target (.branchCounts index position.size other.size)
  /-- The branch at `place` repeats one before it, and those before it all differ. -/
  | duplicateBranch {index place : Nat} {position other : Position} {branch : String}
      (counts : source.size = target.size)
      (reached : source.PairedUpTo target index position other)
      (sizes : position.size = other.size)
      (named : position.branches[place]? = some branch)
      (fresh : (position.branches.take place).Nodup)
      (repeats : branch ∈ position.branches.take place) :
      FirstFault source target (.duplicateBranch index branch)

theorem firstRepeat?_eq_some_iff [DecidableEq α] {seen list : List α} {a : α} :
    firstRepeat? seen list = some a ↔
      ∃ place, list[place]? = some a ∧ firstRepeat? seen (list.take place) = none ∧
        (a ∈ seen ∨ a ∈ list.take place) := by
  induction list generalizing seen with
  | nil => simp [firstRepeat?]
  | cons first rest ih =>
      by_cases repeats : first ∈ seen
      · rw [firstRepeat?, if_pos repeats]
        constructor
        · rintro ⟨⟩
          exact ⟨0, rfl, rfl, .inl repeats⟩
        · rintro ⟨place, named, fresh, _⟩
          cases place with
          | zero => exact named
          | succ place => simp [firstRepeat?, repeats] at fresh
      · rw [firstRepeat?, if_neg repeats, ih]
        constructor
        · rintro ⟨place, named, fresh, listed⟩
          refine ⟨place + 1, named, by simpa [firstRepeat?, repeats] using fresh, ?_⟩
          simpa [or_assoc, or_left_comm] using listed
        · rintro ⟨place, named, fresh, listed⟩
          cases place with
          | zero =>
              cases named
              exact absurd listed (by simp [repeats])
          | succ place =>
              refine ⟨place, named, by simpa [firstRepeat?, repeats] using fresh, ?_⟩
              simpa [or_assoc, or_left_comm] using listed

theorem Column.ofPositions_eq_error_iff {index : Nat} {position other : Position} {error : Error} :
    Column.ofPositions index position other = .error error ↔
      (position.size ≠ other.size ∧ error = .branchCounts index position.size other.size) ∨
      (position.size = other.size ∧ ∃ branch, firstRepeat? [] position.branches = some branch ∧
        error = .duplicateBranch index branch) := by
  unfold Column.ofPositions
  by_cases sizes : position.size = other.size
  · rw [dif_pos sizes]
    split
    · rename_i branch repeats
      simp [sizes, repeats, eq_comm]
    · rename_i distinct
      simp [sizes, distinct]
  · simp [sizes, eq_comm]

theorem columnsFrom_eq_error_iff {start : Nat} {pairs : List (Position × Position)}
    {error : Error} :
    columnsFrom start pairs = .error error ↔
      ∃ index pair, pairs[index]? = some pair ∧
        (∀ earlier ∈ pairs.take index, earlier.1.Pairs earlier.2) ∧
        Column.ofPositions (start + index) pair.1 pair.2 = .error error := by
  induction pairs generalizing start with
  | nil => simp [columnsFrom]
  | cons pair rest ih =>
      have later : ∀ column : Column,
          (do let columns ← columnsFrom (start + 1) rest; return column :: columns) = .error error ↔
            columnsFrom (start + 1) rest = .error error := by
        intro column
        rw [bind_eq_error_iff]
        simp [pure, Except.pure]
      simp only [columnsFrom, bind_eq_error_iff, later, Column.ofPositions_eq_ok_iff, ih]
      -- The positions before the faulty one make columns, and it does not matter which.
      rw [exists_and_right, Column.exists_iff]
      constructor
      · rintro (here | ⟨pairs, index, other, found, earlier, faulty⟩)
        · exact ⟨0, pair, rfl, by simp, here⟩
        · refine ⟨index + 1, other, found, List.forall_mem_cons.mpr ⟨pairs, earlier⟩, ?_⟩
          rwa [Nat.add_comm index 1, ← Nat.add_assoc]
      · rintro ⟨index, other, found, earlier, faulty⟩
        cases index with
        | zero =>
            cases found
            exact .inl faulty
        | succ index =>
            obtain ⟨pairs, earlier⟩ := List.forall_mem_cons.mp earlier
            refine .inr ⟨pairs, index, other, found, earlier, ?_⟩
            rwa [Nat.add_assoc, Nat.add_comm 1 index]

theorem Table.ofPatterns_eq_error_iff {source target : Pattern} {error : Error} :
    Table.ofPatterns source target = .error error ↔ source.FirstFault target error := by
  unfold Table.ofPatterns
  by_cases counts : source.size = target.size
  · rw [if_neg (not_not.mpr counts), bind_eq_error_iff]
    simp only [columnsFrom_eq_error_iff, pure, Except.pure, reduceCtorEq, and_false, exists_false,
      or_false, Nat.zero_add, List.getElem?_zip_eq_some, Column.ofPositions_eq_error_iff]
    constructor
    · rintro ⟨index, ⟨position, other⟩, ⟨sourceAt, targetAt⟩, earlier, faulty⟩
      have reached : source.PairedUpTo target index position other :=
        ⟨sourceAt, targetAt, earlier⟩
      rcases faulty with ⟨differ, rfl⟩ | ⟨sizes, branch, found, rfl⟩
      · exact .branchCounts counts reached differ
      · obtain ⟨place, named, fresh, repeats⟩ := firstRepeat?_eq_some_iff.mp found
        have unseen := (firstRepeat?_eq_none_iff.mp fresh).1
        exact .duplicateBranch counts reached sizes named unseen (by simpa using repeats)
    · intro fault
      cases fault with
      | positionCounts differ => exact absurd counts differ
      | branchCounts _ reached differ =>
          exact ⟨_, (_, _), ⟨reached.sourceAt, reached.targetAt⟩, reached.earlier,
            .inl ⟨differ, rfl⟩⟩
      | duplicateBranch _ reached sizes named fresh repeats =>
          have unseen := firstRepeat?_eq_none_iff.mpr ⟨fresh, fun _ _ => List.not_mem_nil⟩
          have found := firstRepeat?_eq_some_iff.mpr ⟨_, named, unseen, .inr repeats⟩
          exact ⟨_, (_, _), ⟨reached.sourceAt, reached.targetAt⟩, reached.earlier,
            .inr ⟨sizes, _, found, rfl⟩⟩
  · rw [if_pos counts]
    constructor
    · rintro ⟨⟩
      exact .positionCounts counts
    · rintro (_ | ⟨same, _⟩ | ⟨same, _⟩)
      · rfl
      · exact absurd same counts
      · exact absurd same counts

theorem Rule.ofExprs_eq_error_iff {source target : String} {boundary : Bool} {error : Error} :
    Rule.ofExprs source target boundary = .error error ↔
      Pattern.parse source = .error error ∨
      ∃ searched, Pattern.parse source = .ok searched ∧
        (Pattern.parse target = .error error ∨
          ∃ replacing, Pattern.parse target = .ok replacing ∧
            searched.FirstFault replacing error) := by
  unfold Rule.ofExprs
  split
  · rename_i unread
    simp [unread, eq_comm]
  · rename_i searched read
    cases readTarget : Pattern.parse target with
    | error fault => simp [read, eq_comm]
    | ok replacing =>
        dsimp only
        split
        · rename_i unpaired
          simp [read, ← Table.ofPatterns_eq_error_iff, unpaired]
        · rename_i paired
          simp [read, ← Table.ofPatterns_eq_error_iff, paired]

/-- A rule is refused for the fault of the source expression, or else for that of the
target expression, or else for the first fault of the two patterns.  If there is none
of these, the rule is made.  Whether word edges are asked for makes no difference. -/
theorem Rule.ofExprs_first_fault (source target : String) (boundary : Bool) :
    (∀ error, Rule.ofExprs source target boundary = .error error ↔
      Pattern.parse source = .error error ∨
      ∃ searched, Pattern.parse source = .ok searched ∧
        (Pattern.parse target = .error error ∨
          ∃ replacing, Pattern.parse target = .ok replacing ∧
            searched.FirstFault replacing error)) ∧
    ((∃ rule, Rule.ofExprs source target boundary = .ok rule) ↔
      ∃ searched replacing, Pattern.parse source = .ok searched ∧
        Pattern.parse target = .ok replacing ∧ ∀ error, ¬ searched.FirstFault replacing error) := by
  refine ⟨fun error => Rule.ofExprs_eq_error_iff, ?_⟩
  constructor
  · rintro ⟨rule, made⟩
    obtain ⟨read, readTarget, _⟩ := Rule.ofExprs_eq_ok_iff.mp made
    refine ⟨_, _, read, readTarget, fun error fault => ?_⟩
    have refused : Rule.ofExprs source target boundary = .error error :=
      Rule.ofExprs_eq_error_iff.mpr (.inr ⟨_, read, .inr ⟨_, readTarget, fault⟩⟩)
    cases made.symm.trans refused
  · rintro ⟨searched, replacing, read, readTarget, sound⟩
    cases made : Rule.ofExprs source target boundary with
    | ok rule => exact ⟨rule, rfl⟩
    | error error =>
        have fault := Rule.ofExprs_eq_error_iff.mp made
        simp only [read, readTarget, reduceCtorEq, false_or, Except.ok.injEq,
          exists_eq_left'] at fault
        exact absurd fault (sound error)

/-- Of two repeated branches the one repeated first is named, and a later position is
not looked at. -/
example : Rule.ofExprs "x/a,b,b,a/c" "y/1,2,3,4/5,6" true = .error (.duplicateBranch 1 "b") := by
  decide +kernel

end WordSubst
