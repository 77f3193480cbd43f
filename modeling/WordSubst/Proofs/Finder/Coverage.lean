import WordSubst.Proofs.Finder.Scan

namespace WordSubst

/-- Spans that lead from `start` to `stop`, each beginning where the one before ends. -/
def Adjacent : (start stop : Nat) → List (Nat × Nat) → Prop
  | start, stop, [] => start = stop
  | start, stop, span :: rest => span.1 = start ∧ start ≤ span.2 ∧ Adjacent span.2 stop rest

theorem adjacent_spansFrom (start : Nat) (pieces : List Bytes) :
    Adjacent start (start + pieces.flatten.length) (Occurrence.spansFrom start pieces) := by
  induction pieces generalizing start with
  | nil => rfl
  | cons piece rest ih =>
      refine ⟨rfl, Nat.le_add_right _ _, ?_⟩
      rw [List.flatten_cons, List.length_append, ← Nat.add_assoc]
      exact ih (start + piece.length)

theorem map_cut_spansFrom {text : Bytes} {start : Nat} {pieces : List Bytes}
    (stands : pieces.flatten <+: text.drop start) :
    (Occurrence.spansFrom start pieces).map (cut text) = pieces := by
  induction pieces generalizing start with
  | nil => rfl
  | cons piece rest ih =>
      obtain ⟨after, split⟩ := stands
      rw [List.flatten_cons, List.append_assoc] at split
      have here : cut text (start, start + piece.length) = piece := by
        simp only [cut, ← split, Nat.add_sub_cancel_left, List.take_left]
      have onward : rest.flatten <+: text.drop (start + piece.length) := by
        rw [← List.drop_drop, ← split, List.drop_left]
        exact List.prefix_append _ _
      rw [Occurrence.spansFrom, List.map_cons, here, ih onward]

namespace Finder

theorem find?_eq_none_iff {finder : Finder} {text : Bytes} {start : Nat} :
    finder.find? text start = none ↔
      ∀ place choice pieces, start ≤ place → ¬ finder.Fit text place choice pieces := by
  have first := finder.isFirst_find? text start
  refine ⟨fun nothing => ?_, fun unfit => ?_⟩
  · rw [nothing] at first
    intro place choice pieces after
    exact hit?_eq_none_iff.mp (first place after) choice pieces
  · have nothing : IsFirst (finder.hit? text) start none := by
      intro place after
      exact hit?_eq_none_iff.mpr fun choice pieces => unfit place choice pieces after
    exact first.unique nothing

theorem find?_eq_some_iff {finder : Finder} {text : Bytes} {start : Nat}
    {occurrence : Occurrence} :
    finder.find? text start = some occurrence ↔
      start ≤ occurrence.start ∧
      (∀ place choice pieces, start ≤ place → finder.Fit text place choice pieces →
        occurrence.start ≤ place) ∧
      ∃ choice, finder.BestFit text occurrence.start choice occurrence.pieces := by
  have first := finder.isFirst_find? text start
  refine ⟨fun found => ?_, fun ⟨after, least, best⟩ => ?_⟩
  · rw [found] at first
    obtain ⟨after, here, nothingBefore⟩ := first
    refine ⟨after, ?_, hit?_eq_some_iff.mp here⟩
    intro place choice pieces afterStart fit
    refine Nat.le_of_not_lt fun before => ?_
    exact hit?_eq_none_iff.mp (nothingBefore place afterStart before) choice pieces fit
  · have isFirst : IsFirst (finder.hit? text) start (some occurrence) := by
      refine ⟨after, hit?_eq_some_iff.mpr best, ?_⟩
      intro place afterStart before
      refine hit?_eq_none_iff.mpr fun choice pieces fit => ?_
      exact Nat.not_lt_of_le (least place choice pieces afterStart fit) before
    exact first.unique isFirst

/-- The search from a place finds something exactly if the pattern fits at that
place or a later one.  What it finds starts at the least such place, is the fit
of the least choice there, and consists of adjacent pieces of the text, each of
them the branch that the choice names. -/
theorem find?_leftmost_least (finder : Finder) (text : Bytes) (start : Nat) :
    ((finder.find? text start).isSome = true ↔
        ∃ place choice pieces, start ≤ place ∧ finder.Fit text place choice pieces) ∧
      ∀ occurrence, finder.find? text start = some occurrence ↔
        start ≤ occurrence.start ∧
        (∀ place choice pieces, start ≤ place → finder.Fit text place choice pieces →
          occurrence.start ≤ place) ∧
        ∃ choice, finder.BestFit text occurrence.start choice occurrence.pieces ∧
          Adjacent occurrence.start occurrence.stop occurrence.spans ∧
          pick finder.slots choice = some (occurrence.spans.map (cut text)) := by
  refine ⟨?_, fun occurrence => ⟨fun found => ?_, fun first => ?_⟩⟩
  · rw [← Option.ne_none_iff_isSome, ne_eq, find?_eq_none_iff]
    simp only [not_forall, not_not, exists_prop]
  · obtain ⟨after, least, choice, best⟩ := find?_eq_some_iff.mp found
    have cuts : occurrence.spans.map (cut text) = occurrence.pieces :=
      map_cut_spansFrom best.here
    refine ⟨after, least, choice, best, adjacent_spansFrom _ _, ?_⟩
    rw [cuts]
    exact best.picked
  · obtain ⟨after, least, choice, best, _, _⟩ := first
    exact find?_eq_some_iff.mpr ⟨after, least, choice, best⟩

end Finder

namespace Finder

/-- The occurrence after the one picked last.  The search goes on at its end; if
what it finds ends there too, that is dropped and the search starts one byte on. -/
def next? (finder : Finder) (text : Bytes) (last : Occurrence) : Option Occurrence :=
  match finder.find? text last.stop with
  | some occurrence =>
    if occurrence.stop = last.stop then finder.find? text (last.stop + 1) else some occurrence
  | none => none

structure IsScan (finder : Finder) (text : Bytes) (found : List Occurrence) : Prop where
  begins : found.head? = finder.find? text 0
  continues : ∀ before occurrence after, found = before ++ occurrence :: after →
    after.head? = finder.next? text occurrence
  inside : ∀ occurrence ∈ found,
    occurrence.start ≤ occurrence.stop ∧ occurrence.stop ≤ text.length
  /-- Starts and ends increase, and none starts before the end of the one before it. -/
  ordered : found.Pairwise Occurrence.Before
  bounded : found.length ≤ text.length + 1
  /-- Before, between and after the occurrences the pattern fits nowhere. -/
  complete : ∀ place,
    (∀ occurrence ∈ found, place < occurrence.start ∨ occurrence.stop < place) →
      ∀ choice pieces, ¬ finder.Fit text place choice pieces
  /-- At the end of an occurrence where the next one does not start, the best fit is empty. -/
  settled : ∀ before occurrence after, found = before ++ occurrence :: after →
    (∀ next ∈ after.head?, next.start ≠ occurrence.stop) →
      ∀ choice pieces, finder.BestFit text occurrence.stop choice pieces → pieces.flatten = []

theorem next?_of_empty {finder : Finder} {text : Bytes} {last : Occurrence}
    {pieces : List Bytes} (here : finder.hit? text last.stop = some pieces)
    (nothing : pieces.flatten = []) :
    finder.next? text last = finder.find? text (last.stop + 1) := by
  have isFirst : IsFirst (finder.hit? text) last.stop (some ⟨last.stop, pieces⟩) := by
    refine ⟨Nat.le_refl _, here, ?_⟩
    intro place after before
    exact absurd before (Nat.not_lt_of_le after)
  have found := (finder.isFirst_find? text last.stop).unique isFirst
  have stop : (Occurrence.mk last.stop pieces).stop = last.stop := by
    simp only [Occurrence.stop, Occurrence.text, nothing, List.length_nil, Nat.add_zero]
  simp only [next?, found, stop, if_true]

theorem next?_of_stop_ne {finder : Finder} {text : Bytes} {last : Occurrence}
    (stops : ∀ occurrence ∈ finder.find? text last.stop, occurrence.stop ≠ last.stop) :
    finder.next? text last = finder.find? text last.stop := by
  unfold next?
  cases found : finder.find? text last.stop with
  | none => rfl
  | some occurrence => simp only [if_neg (stops occurrence found)]

theorem head?_eq_next? {finder : Finder} {text : Bytes} {found before after : List Occurrence}
    {occurrence : Occurrence} (run : Scanned (finder.hit? text) text.length 0 false found)
    (split : found = before ++ occurrence :: after) :
    after.head? = finder.next? text occurrence := by
  have inside := finder.hit?_inside text
  rcases run.after_split split with ⟨nothing, rest⟩ | ⟨_, rest⟩
  · have start : occurrence.start = occurrence.stop := by simp [Occurrence.stop, nothing]
    have here := run.found_hit (split ▸ List.mem_append_right _ (.head _))
    rw [next?_of_empty (start ▸ here) nothing]
    exact (rest.isFirst_head? inside).unique (finder.isFirst_find? text _)
  · rcases rest.resume with ⟨pieces, here, nothing, onward⟩ | ⟨onward, stops⟩
    · rw [next?_of_empty here nothing]
      exact (onward.isFirst_head? inside).unique (finder.isFirst_find? text _)
    · have first := (onward.isFirst_head? inside).unique (finder.isFirst_find? text _)
      rw [next?_of_stop_ne, first]
      intro next found
      rw [← first] at found
      exact stops next (List.mem_of_mem_head? found)

/-- The scan of a text is ordered, picks occurrences that do not overlap, and
misses nothing. -/
theorem findAll_isScan (finder : Finder) (text : Bytes) :
    finder.IsScan text (finder.findAll text) := by
  have run : Scanned (finder.hit? text) text.length 0 false (finder.findAll text) :=
    finder.findFrom_scanned text 0
  refine ⟨rfl, fun _ _ _ => head?_eq_next? run, ?_, run.ordered, ?_, ?_, ?_⟩
  · intro occurrence picked
    obtain ⟨choice, best⟩ := hit?_eq_some_iff.mp (run.found_hit picked)
    exact ⟨occurrence.start_le_stop, best.stop_le⟩
  · exact run.length_le (finder.hit?_inside text)
  · intro place outside choice pieces fit
    cases here : finder.hit? text place with
    | none => exact hit?_eq_none_iff.mp here choice pieces fit
    | some found =>
        rcases run.covered (Nat.zero_le _) fit.inside here with ⟨impossible, _⟩ | covering
        · cases impossible
        · obtain ⟨occurrence, picked, starts, stops⟩ := covering
          have apart := outside occurrence picked
          omega
  · intro before occurrence after split elsewhere choice pieces best
    have here := hit?_eq_some_iff.mpr ⟨choice, best⟩
    rcases run.after_split split with ⟨nothing, _⟩ | ⟨_, rest⟩
    · have start : occurrence.start = occurrence.stop := by simp [Occurrence.stop, nothing]
      have picked := run.found_hit (split ▸ List.mem_append_right _ (.head _))
      rw [start, here] at picked
      exact Option.some.inj picked ▸ nothing
    · refine Classical.byContradiction fun something => ?_
      obtain ⟨later, rfl⟩ := rest.begins best.inside here something
      exact elsewhere _ rfl rfl

end Finder

end WordSubst
