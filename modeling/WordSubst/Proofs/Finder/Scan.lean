import WordSubst.Proofs.Finder.Fit

namespace WordSubst

/-- A scan from `place` to `limit` picks `found`.  If it is `touching`, the
occurrence before ends at `place`, and an empty one there is passed over. -/
inductive Scanned (hit : Nat → Way) (limit : Nat) :
    (place : Nat) → (touching : Bool) → List Occurrence → Prop where
  | done : limit < place → Scanned hit limit place touching []
  | miss : hit place = none → Scanned hit limit (place + 1) false found →
      Scanned hit limit place touching found
  | pass : hit place = some pieces → pieces.flatten = [] →
      Scanned hit limit (place + 1) false found → Scanned hit limit place true found
  | empty : hit place = some pieces → pieces.flatten = [] →
      Scanned hit limit (place + 1) false found →
      Scanned hit limit place false (⟨place, pieces⟩ :: found)
  | take : hit place = some pieces → pieces.flatten ≠ [] →
      Scanned hit limit (place + pieces.flatten.length) true found →
      Scanned hit limit place touching (⟨place, pieces⟩ :: found)

/-- The ways are those of the places from `offset` on. -/
def Tells (hit : Nat → Way) (offset : Nat) (ways : List Way) : Prop :=
  ∀ index, index < ways.length → hit (offset + index) = ways[index]?.join

section Tells

variable {hit : Nat → Way} {limit offset : Nat} {way : Way} {later : List Way}

theorem Tells.head (tells : Tells hit offset (way :: later)) : hit offset = way := by
  simpa using tells 0 (by simp)

theorem Tells.tail (tells : Tells hit offset (way :: later)) : Tells hit (offset + 1) later := by
  intro index inside
  have shifted := tells (index + 1) (by simpa using inside)
  rw [List.getElem?_cons_succ, Nat.add_comm index 1, ← Nat.add_assoc] at shifted
  exact shifted

theorem scan_scanned (skip : Nat) (touching : Bool) {ways : List Way}
    (tells : Tells hit offset ways) (length : offset + ways.length = limit + 1) :
    Scanned hit limit (offset + skip) touching (scan offset skip touching ways) := by
  -- Each case of the scan is a rule of the run, which begins after the places to be skipped.
  fun_induction scan offset skip touching ways with
  | case1 offset skip touching =>
      rw [List.length_nil] at length
      exact .done (by omega)
  | case2 offset skip touching way later ih =>
      rw [List.length_cons] at length
      have onward := ih tells.tail (by omega)
      rw [Nat.add_assoc, Nat.add_comm 1 skip] at onward
      exact onward
  | case3 touching offset later ih =>
      rw [List.length_cons] at length
      exact .miss tells.head (ih tells.tail (by omega))
  | case4 offset pieces later size ih =>
      rw [List.length_cons] at length
      have nothing := List.eq_nil_of_length_eq_zero size
      exact .pass tells.head nothing (ih tells.tail (by omega))
  | case5 offset touching pieces later size apart ih =>
      rw [List.length_cons] at length
      have nothing := List.eq_nil_of_length_eq_zero size
      rw [Bool.not_eq_true] at apart
      subst apart
      exact .empty tells.head nothing (ih tells.tail (by omega))
  | case6 offset touching pieces later more size ih =>
      rw [List.length_cons] at length
      have something : pieces.flatten ≠ [] := by
        intro nothing
        simp [nothing] at size
      have stop : offset + 1 + more = offset + pieces.flatten.length := by omega
      have onward := ih tells.tail (by omega)
      rw [stop] at onward
      exact .take tells.head something onward

end Tells

theorem Finder.findFrom_scanned (finder : Finder) (text : Bytes) (start : Nat) :
    Scanned (finder.hit? text) text.length start false (finder.findFrom text start) := by
  by_cases inside : start ≤ text.length + 1
  · have tells : Tells (finder.hit? text) start ((finder.hits text).drop start) := by
      intro index _
      rw [List.getElem?_drop]
      rfl
    have length : start + ((finder.hits text).drop start).length = text.length + 1 := by
      rw [List.length_drop, length_hits]
      omega
    exact scan_scanned 0 false tells length
  · have nothing : (finder.hits text).drop start = [] := by
      apply List.drop_of_length_le
      rw [length_hits]
      omega
    rw [findFrom, nothing]
    exact .done (by omega)

/-- A scan looks at pieces only to see how long they are together. -/
theorem scan_map {join : List Bytes → List Bytes}
    (keeps : ∀ pieces, (join pieces).flatten = pieces.flatten) (offset skip : Nat)
    (touching : Bool) (ways : List Way) :
    scan offset skip touching (ways.map (Option.map join)) =
      (scan offset skip touching ways).map fun occurrence =>
        ⟨occurrence.start, join occurrence.pieces⟩ := by
  induction ways generalizing offset skip touching with
  | nil => simp [scan]
  | cons way later ih =>
      cases skip with
      | succ skip => simp [scan, ih]
      | zero =>
          cases way with
          | none => simp [scan, ih]
          | some pieces =>
              rw [List.map_cons, Option.map_some, scan, scan, keeps]
              cases pieces.flatten.length with
              | zero => cases touching <;> simp [ih]
              | succ more => simp [ih]

/-- One occurrence lies before another: both ends are ordered, and they share no byte. -/
def Occurrence.Before (first later : Occurrence) : Prop :=
  first.start < later.start ∧ first.stop < later.stop ∧ first.stop ≤ later.start

theorem Occurrence.start_le_stop (occurrence : Occurrence) :
    occurrence.start ≤ occurrence.stop :=
  Nat.le_add_right _ _

namespace Scanned

variable {hit : Nat → Way} {limit place : Nat} {touching : Bool} {found : List Occurrence}

theorem found_hit (run : Scanned hit limit place touching found) {occurrence : Occurrence}
    (picked : occurrence ∈ found) : hit occurrence.start = some occurrence.pieces := by
  induction run with
  | done past => cases picked
  | miss nothing rest ih => exact ih picked
  | pass here nothing rest ih => exact ih picked
  | empty here nothing rest ih | take here something rest ih =>
      rcases List.mem_cons.mp picked with rfl | later
      · exact here
      · exact ih later

theorem place_le (run : Scanned hit limit place touching found) {occurrence : Occurrence}
    (picked : occurrence ∈ found) :
    place ≤ occurrence.start ∧ (touching = true → place < occurrence.stop) := by
  have ends := occurrence.start_le_stop
  induction run with
  | done past => cases picked
  | miss nothing rest ih | pass here nothing rest ih =>
      have later := (ih picked).1
      omega
  | empty here nothing rest ih =>
      rcases List.mem_cons.mp picked with rfl | later
      · exact ⟨Nat.le_refl _, fun impossible => by cases impossible⟩
      · have later := (ih later).1
        omega
  | take here something rest ih =>
      rcases List.mem_cons.mp picked with rfl | later
      · have positive := List.length_pos_iff.mpr something
        refine ⟨Nat.le_refl _, fun _ => ?_⟩
        simp only [Occurrence.stop, Occurrence.text]
        omega
      · have positive := List.length_pos_iff.mpr something
        have later := (ih later).1
        omega

theorem ordered (run : Scanned hit limit place touching found) :
    found.Pairwise Occurrence.Before := by
  induction run with
  | done past => exact .nil
  | miss nothing rest ih | pass here nothing rest ih => exact ih
  | @empty place pieces found here nothing rest ih =>
      have before : ∀ later ∈ found, Occurrence.Before ⟨place, pieces⟩ later := by
        intro later picked
        have after := (rest.place_le picked).1
        have ends := later.start_le_stop
        have stop : (Occurrence.mk place pieces).stop = place := by
          rw [Occurrence.stop, Occurrence.text, nothing, List.length_nil, Nat.add_zero]
        simp only [Occurrence.Before, stop]
        omega
      exact .cons before ih
  | @take place pieces found touching here something rest ih =>
      have before : ∀ later ∈ found, Occurrence.Before ⟨place, pieces⟩ later := by
        intro later picked
        obtain ⟨after, beyond⟩ := rest.place_le picked
        have positive := List.length_pos_iff.mpr something
        have stop : (Occurrence.mk place pieces).stop = place + pieces.flatten.length := rfl
        simp only [Occurrence.Before, stop]
        exact ⟨by omega, beyond rfl, after⟩
      exact .cons before ih

/-- Wherever something is found, an occurrence is picked that covers the place or
ends at it. -/
theorem covered (run : Scanned hit limit place touching found) {here : Nat} {pieces : List Bytes}
    (from_place : place ≤ here) (inside : here ≤ limit) (hits : hit here = some pieces) :
    (touching = true ∧ here = place) ∨
      ∃ occurrence ∈ found, occurrence.start ≤ here ∧ here ≤ occurrence.stop := by
  induction run with
  | done past => omega
  | @miss place found touching nothing rest ih =>
      have onward : place + 1 ≤ here := by
        rcases Nat.lt_or_eq_of_le from_place with later | rfl
        · exact later
        · simp [nothing] at hits
      rcases ih onward with ⟨impossible, _⟩ | covering
      · cases impossible
      · exact .inr covering
  | @pass place passed found _ nothing rest ih =>
      rcases Nat.lt_or_eq_of_le from_place with later | same
      · rcases ih later with ⟨impossible, _⟩ | covering
        · cases impossible
        · exact .inr covering
      · exact .inl ⟨rfl, same.symm⟩
  | @empty place taken found _ nothing rest ih =>
      refine .inr ?_
      rcases Nat.lt_or_eq_of_le from_place with later | rfl
      · rcases ih later with ⟨impossible, _⟩ | ⟨occurrence, picked, covering⟩
        · cases impossible
        · exact ⟨occurrence, .tail _ picked, covering⟩
      · exact ⟨_, .head _, Nat.le_refl _, Occurrence.start_le_stop ⟨place, taken⟩⟩
  | @take place taken found touching _ something rest ih =>
      refine .inr ?_
      by_cases covers : here ≤ place + taken.flatten.length
      · exact ⟨_, .head _, from_place, covers⟩
      · rcases ih (by omega) with ⟨_, same⟩ | ⟨occurrence, picked, covering⟩
        · omega
        · exact ⟨occurrence, .tail _ picked, covering⟩

theorem begins (run : Scanned hit limit place touching found) {pieces : List Bytes}
    (inside : place ≤ limit) (here : hit place = some pieces) (something : pieces.flatten ≠ []) :
    ∃ rest, found = ⟨place, pieces⟩ :: rest := by
  cases run with
  | done past => omega
  | miss nothing rest => simp [nothing] at here
  | pass passed nothing rest | empty passed nothing rest =>
      cases passed.symm.trans here
      exact absurd nothing something
  | take taken _ rest =>
      cases taken.symm.trans here
      exact ⟨_, rfl⟩

/-- After an occurrence the scan goes on at its end, but after an empty one at the
place that follows. -/
theorem after_split (run : Scanned hit limit place touching found)
    {before after : List Occurrence} {occurrence : Occurrence}
    (split : found = before ++ occurrence :: after) :
    (occurrence.text = [] ∧ Scanned hit limit (occurrence.stop + 1) false after) ∨
      (occurrence.text ≠ [] ∧ Scanned hit limit occurrence.stop true after) := by
  induction run generalizing before with
  | done past => simp at split
  | miss nothing rest ih | pass here nothing rest ih => exact ih split
  | empty here nothing rest ih =>
      cases before with
      | nil =>
          cases split
          refine .inl ⟨nothing, ?_⟩
          simpa only [Occurrence.stop, Occurrence.text, nothing, List.length_nil] using rest
      | cons first before =>
          cases split
          exact ih rfl
  | take here something rest ih =>
      cases before with
      | nil =>
          cases split
          exact .inr ⟨something, rest⟩
      | cons first before =>
          cases split
          exact ih rfl

/-- A touching scan either passes over an empty occurrence or goes on like one that
is not touching, and then picks nothing that ends where it began. -/
theorem resume (run : Scanned hit limit place true found) :
    (∃ pieces, hit place = some pieces ∧ pieces.flatten = [] ∧
        Scanned hit limit (place + 1) false found) ∨
      (Scanned hit limit place false found ∧
        ∀ occurrence ∈ found, occurrence.stop ≠ place) := by
  have stops : ∀ occurrence ∈ found, occurrence.stop ≠ place := by
    intro occurrence picked
    have beyond := (run.place_le picked).2 rfl
    omega
  cases run with
  | done past => exact .inr ⟨.done past, stops⟩
  | miss nothing rest => exact .inr ⟨.miss nothing rest, stops⟩
  | pass here nothing rest => exact .inl ⟨_, here, nothing, rest⟩
  | take here something rest => exact .inr ⟨.take here something rest, stops⟩

theorem length_le (run : Scanned hit limit place touching found)
    (inside : ∀ place pieces, hit place = some pieces → place ≤ limit) :
    found.length ≤ limit + 1 - place := by
  induction run with
  | done past => exact Nat.zero_le _
  | miss nothing rest ih | pass here nothing rest ih => omega
  | empty here nothing rest ih =>
      have bound := inside _ _ here
      rw [List.length_cons]
      omega
  | take here something rest ih =>
      have bound := inside _ _ here
      have positive := List.length_pos_iff.mpr something
      rw [List.length_cons]
      omega

end Scanned

/-- Of all that is found at or after a place, the occurrence is the first. -/
def IsFirst (hit : Nat → Way) (place : Nat) : Option Occurrence → Prop
  | none => ∀ here, place ≤ here → hit here = none
  | some occurrence => place ≤ occurrence.start ∧ hit occurrence.start = some occurrence.pieces ∧
      ∀ here, place ≤ here → here < occurrence.start → hit here = none

theorem IsFirst.unique {hit : Nat → Way} {place : Nat} {first other : Option Occurrence}
    (isFirst : IsFirst hit place first) (otherFirst : IsFirst hit place other) :
    first = other := by
  cases first with
  | none =>
      cases other with
      | none => rfl
      | some occurrence =>
          have nothing := isFirst occurrence.start otherFirst.1
          simp [otherFirst.2.1] at nothing
  | some occurrence =>
      cases other with
      | none =>
          have nothing := otherFirst occurrence.start isFirst.1
          simp [isFirst.2.1] at nothing
      | some otherOccurrence =>
          obtain ⟨after, here, none_before⟩ := isFirst
          obtain ⟨otherAfter, otherHere, none_before_other⟩ := otherFirst
          have starts : occurrence.start = otherOccurrence.start := by
            rcases Nat.lt_trichotomy occurrence.start otherOccurrence.start with less | same | less
            · simp [none_before_other _ after less] at here
            · exact same
            · simp [none_before _ otherAfter less] at otherHere
          have pieces : occurrence.pieces = otherOccurrence.pieces :=
            Option.some.inj (here.symm.trans (starts ▸ otherHere))
          cases occurrence
          cases otherOccurrence
          simp_all

/-- A scan that does not touch an occurrence before it begins with the first one. -/
theorem Scanned.isFirst_head? {hit : Nat → Way} {limit place : Nat} {found : List Occurrence}
    (run : Scanned hit limit place false found)
    (inside : ∀ place pieces, hit place = some pieces → place ≤ limit) :
    IsFirst hit place found.head? := by
  have covering : ∀ here pieces, place ≤ here → hit here = some pieces →
      ∃ occurrence ∈ found, occurrence.start ≤ here := by
    intro here pieces after hits
    rcases run.covered after (inside here pieces hits) hits with ⟨impossible, _⟩ | covering
    · cases impossible
    · obtain ⟨occurrence, picked, starts, _⟩ := covering
      exact ⟨occurrence, picked, starts⟩
  cases found with
  | nil =>
      intro here after
      rw [Option.eq_none_iff_forall_ne_some]
      intro pieces hits
      obtain ⟨_, picked, _⟩ := covering here pieces after hits
      cases picked
  | cons occurrence rest =>
      refine ⟨(run.place_le (.head _)).1, run.found_hit (.head _), ?_⟩
      intro here after before
      rw [Option.eq_none_iff_forall_ne_some]
      intro pieces hits
      obtain ⟨other, picked, starts⟩ := covering here pieces after hits
      rcases List.mem_cons.mp picked with rfl | later
      · omega
      · have ordered := ((List.pairwise_cons.mp run.ordered).1 other later).1
        omega

theorem Finder.hit?_inside (finder : Finder) (text : Bytes) (place : Nat) (pieces : List Bytes)
    (found : finder.hit? text place = some pieces) : place ≤ text.length := by
  obtain ⟨choice, best⟩ := hit?_eq_some_iff.mp found
  exact best.inside

theorem Finder.isFirst_find? (finder : Finder) (text : Bytes) (start : Nat) :
    IsFirst (finder.hit? text) start (finder.find? text start) :=
  (finder.findFrom_scanned text start).isFirst_head? (finder.hit?_inside text)

end WordSubst
