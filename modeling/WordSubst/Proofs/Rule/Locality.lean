import WordSubst.Proofs.Finder.Scan
import WordSubst.Proofs.Rule.Splice

namespace WordSubst

/-- The byte stands in no branch and, with `boundary`, is no part of a word. -/
structure Finder.Foreign (finder : Finder) (byte : UInt8) : Prop where
  unlisted : ∀ branches ∈ finder.slots, ∀ branch ∈ branches, byte ∉ branch
  apart : finder.boundary = true → isWordByte byte = false

section Places

variable {left right bytes : Bytes} {byte : UInt8} {place : Nat} {boundary : Bool}

theorem prefix_append_cons_iff (absent : byte ∉ bytes) :
    bytes <+: left ++ byte :: right ↔ bytes <+: left := by
  constructor
  · intro stands
    rcases List.prefix_or_prefix_of_prefix stands (List.prefix_append left _) with here | longer
    · exact here
    · obtain ⟨after, rfl⟩ := longer
      cases after with
      | nil => simp
      | cons first after =>
          have same : first = byte := by
            have onward := (List.prefix_append_right_inj left).mp stands
            exact (List.cons_prefix_cons.mp onward).1
          simp [same] at absent
  · intro stands
    exact stands.trans (List.prefix_append left _)

theorem wordAfter_append_left (apart : isWordByte byte = false) (inside : place ≤ left.length) :
    wordAfter (left ++ byte :: right) place = wordAfter left place := by
  rcases Nat.lt_or_eq_of_le inside with before | rfl
  · simp only [wordAfter, List.getElem?_append_left before]
  · simp [wordAfter, apart]

theorem wordBefore_append_left (inside : place ≤ left.length) :
    wordBefore (left ++ byte :: right) place = wordBefore left place := by
  cases place with
  | zero => rfl
  | succ place =>
      have before : place < left.length := inside
      simp only [wordBefore, wordAfter, List.getElem?_append_left before]

theorem isEdge_append_left (apart : isWordByte byte = false) (inside : place ≤ left.length) :
    IsEdge (left ++ byte :: right) place ↔ IsEdge left place := by
  rw [IsEdge, IsEdge, wordAfter_append_left apart inside, wordBefore_append_left inside]

theorem getElem?_append_cons_right :
    (left ++ byte :: right)[left.length + 1 + place]? = right[place]? := by
  rw [List.getElem?_append_right (by omega)]
  have index : left.length + 1 + place - left.length = place + 1 := by omega
  rw [index, List.getElem?_cons_succ]

theorem isEdge_append_right (apart : isWordByte byte = false) :
    IsEdge (left ++ byte :: right) (left.length + 1 + place) ↔ IsEdge right place := by
  have after : ∀ place, wordAfter (left ++ byte :: right) (left.length + 1 + place) =
      wordAfter right place := by
    intro place
    rw [wordAfter, wordAfter, getElem?_append_cons_right]
  rw [IsEdge, IsEdge, after]
  cases place with
  | zero => simp [wordBefore, wordAfter, apart]
  | succ place =>
      have before : wordBefore (left ++ byte :: right) (left.length + 1 + (place + 1)) =
          wordBefore right (place + 1) := after place
      rw [before]

theorem stands_append_left_iff (absent : byte ∉ bytes)
    (apart : boundary = true → isWordByte byte = false) (inside : place ≤ left.length) :
    Stands boundary (left ++ byte :: right) place bytes ↔ Stands boundary left place bytes := by
  have here : bytes <+: (left ++ byte :: right).drop place ↔ bytes <+: left.drop place := by
    rw [List.drop_append_of_le_length inside, prefix_append_cons_iff absent]
  constructor
  · intro stands
    have stop : place + bytes.length ≤ left.length := by
      have shorter := (here.mp stands.here).length_le
      rw [List.length_drop] at shorter
      omega
    refine ⟨inside, here.mp stands.here, fun bounded => ?_⟩
    obtain ⟨first, last⟩ := stands.edges bounded
    exact ⟨(isEdge_append_left (apart bounded) inside).mp first,
      (isEdge_append_left (apart bounded) stop).mp last⟩
  · intro stands
    refine ⟨by rw [List.length_append]; omega, here.mpr stands.here, fun bounded => ?_⟩
    obtain ⟨first, last⟩ := stands.edges bounded
    exact ⟨(isEdge_append_left (apart bounded) inside).mpr first,
      (isEdge_append_left (apart bounded) stands.stop_le).mpr last⟩

theorem stands_append_right_iff (apart : boundary = true → isWordByte byte = false) :
    Stands boundary (left ++ byte :: right) (left.length + 1 + place) bytes ↔
      Stands boundary right place bytes := by
  have inside : left.length + 1 + place ≤ (left ++ byte :: right).length ↔
      place ≤ right.length := by
    rw [List.length_append, List.length_cons]
    omega
  have rest : (left ++ byte :: right).drop (left.length + 1 + place) = right.drop place := by
    rw [← List.drop_drop, ← List.drop_drop, List.drop_left]
    rfl
  have stop : left.length + 1 + place + bytes.length =
      left.length + 1 + (place + bytes.length) := Nat.add_assoc _ _ _
  constructor
  · intro stands
    refine ⟨inside.mp stands.inside, rest ▸ stands.here, fun bounded => ?_⟩
    obtain ⟨first, last⟩ := stands.edges bounded
    exact ⟨(isEdge_append_right (apart bounded)).mp first,
      (isEdge_append_right (apart bounded)).mp (stop ▸ last)⟩
  · intro stands
    refine ⟨inside.mpr stands.inside, rest ▸ stands.here, fun bounded => ?_⟩
    obtain ⟨first, last⟩ := stands.edges bounded
    exact ⟨(isEdge_append_right (apart bounded)).mpr first,
      stop ▸ (isEdge_append_right (apart bounded)).mpr last⟩

end Places

namespace Finder

variable {finder : Finder} {byte : UInt8} {left right : Bytes}

theorem foreign_of_unlisted
    (unlisted : ∀ position ∈ finder.pattern.positions, ∀ branch ∈ position.branches,
      byte ∉ utf8 branch)
    (apart : finder.boundary = true → isWordByte byte = false) : finder.Foreign byte := by
  refine ⟨fun branches slot branch listed => ?_, apart⟩
  obtain ⟨position, member, rfl⟩ := List.mem_map.mp slot
  obtain ⟨literal, inPosition, rfl⟩ := List.mem_map.mp listed
  exact unlisted position member literal inPosition

theorem Foreign.not_mem_flatten (foreign : finder.Foreign byte) {choice : List Nat}
    {pieces : List Bytes} (picked : pick finder.slots choice = some pieces) :
    byte ∉ pieces.flatten := by
  intro member
  obtain ⟨piece, listed, inPiece⟩ := List.mem_flatten.mp member
  obtain ⟨branches, slot, branch⟩ := exists_mem_slot_of_pick picked listed
  exact foreign.unlisted branches slot piece branch inPiece

theorem Foreign.hit?_left (foreign : finder.Foreign byte) {place : Nat}
    (inside : place ≤ left.length) :
    finder.hit? (left ++ byte :: right) place = finder.hit? left place := by
  refine hit?_congr fun choice pieces => ⟨fun fit => ?_, fun fit => ?_⟩
  · have absent := foreign.not_mem_flatten fit.picked
    exact ⟨(stands_append_left_iff absent foreign.apart inside).mp fit.toStands, fit.picked⟩
  · have absent := foreign.not_mem_flatten fit.picked
    exact ⟨(stands_append_left_iff absent foreign.apart inside).mpr fit.toStands, fit.picked⟩

theorem Foreign.hit?_right (foreign : finder.Foreign byte) (place : Nat) :
    finder.hit? (left ++ byte :: right) (left.length + 1 + place) = finder.hit? right place := by
  refine hit?_congr fun choice pieces => ⟨fun fit => ?_, fun fit => ?_⟩
  · exact ⟨(stands_append_right_iff foreign.apart).mp fit.toStands, fit.picked⟩
  · exact ⟨(stands_append_right_iff foreign.apart).mpr fit.toStands, fit.picked⟩

theorem Foreign.hits_append (foreign : finder.Foreign byte) (left right : Bytes) :
    finder.hits (left ++ byte :: right) = finder.hits left ++ finder.hits right := by
  have places : (left ++ byte :: right).length + 1 = left.length + 1 + (right.length + 1) := by
    rw [List.length_append, List.length_cons]
    omega
  rw [hits_eq_map, hits_eq_map, hits_eq_map, places, List.range_add, List.map_append, List.map_map]
  congr 1
  · refine List.map_congr_left fun place listed => foreign.hit?_left ?_
    exact Nat.le_of_lt_succ (List.mem_range.mp listed)
  · exact List.map_congr_left fun place _ => foreign.hit?_right place

end Finder

def Occurrence.shift (distance : Nat) (occurrence : Occurrence) : Occurrence :=
  ⟨occurrence.start + distance, occurrence.pieces⟩

theorem Occurrence.stop_shift (distance : Nat) (occurrence : Occurrence) :
    (occurrence.shift distance).stop = occurrence.stop + distance := by
  simp only [stop, text, shift]
  omega

/-- If what is found ends before the last place, or at it, a scan comes past that
place without an occurrence that it touches, and goes on as from the beginning. -/
theorem scan_append {ways : List Way} (offset skip : Nat) (touching : Bool) (later : List Way)
    (short : skip < ways.length ∨ skip = 0 ∧ touching = false)
    (inside : ∀ index pieces, ways[index]? = some (some pieces) →
      index + pieces.flatten.length < ways.length) :
    scan offset skip touching (ways ++ later) =
      scan offset skip touching ways ++ scan (offset + ways.length) 0 false later := by
  -- The scan never skips past the last of the first ways, so it leaves them untouched.
  induction ways generalizing offset skip touching with
  | nil =>
      obtain ⟨rfl, rfl⟩ : skip = 0 ∧ touching = false := by simpa using short
      simp [scan]
  | cons way ways ih =>
      have insideRest : ∀ index pieces, ways[index]? = some (some pieces) →
          index + pieces.flatten.length < ways.length := by
        intro index pieces found
        have bound := inside (index + 1) pieces found
        rw [List.length_cons] at bound
        omega
      have next : offset + 1 + ways.length = offset + (way :: ways).length := by
        rw [List.length_cons]
        omega
      have onward : ∀ skip touching, skip < ways.length ∨ skip = 0 ∧ touching = false →
          scan (offset + 1) skip touching (ways ++ later) =
            scan (offset + 1) skip touching ways ++
              scan (offset + (way :: ways).length) 0 false later := by
        intro skip touching short
        rw [ih (offset + 1) skip touching short insideRest, next]
      rw [List.cons_append]
      cases skip with
      | succ skip =>
          simp only [List.length_cons] at short
          exact onward skip touching (.inl (by omega))
      | zero =>
          cases way with
          | none => exact onward 0 false (.inr ⟨rfl, rfl⟩)
          | some pieces =>
              have bound := inside 0 pieces rfl
              rw [List.length_cons] at bound
              rw [scan, scan]
              cases size : pieces.flatten.length with
              | zero => cases touching <;> simp [onward 0 false (.inr ⟨rfl, rfl⟩)]
              | succ more =>
                  simp only [onward more true (.inl (by omega)), List.cons_append]

theorem scan_shift (distance offset skip : Nat) (touching : Bool) (ways : List Way) :
    scan (offset + distance) skip touching ways =
      (scan offset skip touching ways).map (Occurrence.shift distance) := by
  induction ways generalizing offset skip touching with
  | nil => simp [scan]
  | cons way ways ih =>
      have next : offset + distance + 1 = offset + 1 + distance := by omega
      cases skip with
      | succ skip => rw [scan, scan, next, ih]
      | zero =>
          cases way with
          | none => rw [scan, scan, next, ih]
          | some pieces =>
              rw [scan, scan, next]
              cases pieces.flatten.length with
              | zero => cases touching <;> simp [ih, Occurrence.shift]
              | succ more => simp [ih, Occurrence.shift]

theorem Finder.Foreign.findAll_append {finder : Finder} {byte : UInt8}
    (foreign : finder.Foreign byte) (left right : Bytes) :
    finder.findAll (left ++ byte :: right) =
      finder.findAll left ++ (finder.findAll right).map (Occurrence.shift (left.length + 1)) := by
  have inside : ∀ index pieces, (finder.hits left)[index]? = some (some pieces) →
      index + pieces.flatten.length < (finder.hits left).length := by
    intro index pieces found
    have here : finder.hit? left index = some pieces := by rw [hit?, found, Option.join_some]
    obtain ⟨choice, best⟩ := hit?_eq_some_iff.mp here
    rw [length_hits]
    exact Nat.lt_succ_of_le best.stop_le
  have short : 0 < (finder.hits left).length := by
    rw [length_hits]
    exact Nat.succ_pos _
  have both := scan_append 0 0 false (finder.hits right) (.inl short) inside
  have moved := scan_shift (left.length + 1) 0 0 false (finder.hits right)
  simp only [findAll, findFrom, List.drop_zero, foreign.hits_append, both, length_hits, moved]

section Splice

variable {expand : Occurrence → Bytes} {cursor : Nat} {found later : List Occurrence}

theorem splice_kept (kept text : Bytes)
    (after : ∀ occurrence ∈ found, cursor + kept.length ≤ occurrence.start) :
    splice expand cursor (kept ++ text) found =
      kept ++ splice expand (cursor + kept.length) text found := by
  cases found with
  | nil => rfl
  | cons occurrence later =>
      have start := after occurrence (.head _)
      have stop := occurrence.start_le_stop
      have before : kept.take (occurrence.start - cursor) = kept :=
        List.take_of_length_le (by omega)
      have passed : kept.drop (occurrence.stop - cursor) = [] :=
        List.drop_of_length_le (by omega)
      rw [splice, splice, List.take_append, List.drop_append, before, passed, Nat.sub_sub,
        Nat.sub_sub, List.nil_append, List.append_assoc, List.append_assoc, List.append_assoc]

theorem splice_append {text : Bytes} (rest : Bytes)
    (inside : ∀ occurrence ∈ found,
      cursor ≤ occurrence.start ∧ occurrence.stop ≤ cursor + text.length)
    (ordered : found.Pairwise Occurrence.Before)
    (after : ∀ occurrence ∈ later, cursor + text.length ≤ occurrence.start) :
    splice expand cursor (text ++ rest) (found ++ later) =
      splice expand cursor text found ++ splice expand (cursor + text.length) rest later := by
  induction found generalizing cursor text with
  | nil => exact splice_kept text rest after
  | cons occurrence found ih =>
      obtain ⟨before, ordered⟩ := List.pairwise_cons.mp ordered
      obtain ⟨start, stop⟩ := inside occurrence (.head _)
      have ends := occurrence.start_le_stop
      have place : occurrence.stop + (text.drop (occurrence.stop - cursor)).length =
          cursor + text.length := by
        rw [List.length_drop]
        omega
      have onward : splice expand occurrence.stop
            (text.drop (occurrence.stop - cursor) ++ rest) (found ++ later) =
          splice expand occurrence.stop (text.drop (occurrence.stop - cursor)) found ++
            splice expand (cursor + text.length) rest later := by
        rw [← place]
        refine ih (fun other member => ?_) ordered (fun other member => place ▸ after other member)
        exact ⟨(before other member).2.2, place ▸ (inside other (.tail _ member)).2⟩
      rw [List.cons_append, splice, splice, List.take_append_of_le_length (by omega),
        List.drop_append_of_le_length (by omega), onward, List.append_assoc, List.append_assoc,
        List.append_assoc]

theorem splice_shift {distance : Nat}
    (same : ∀ occurrence, expand (occurrence.shift distance) = expand occurrence)
    (cursor : Nat) (text : Bytes) (found : List Occurrence) :
    splice expand (cursor + distance) text (found.map (Occurrence.shift distance)) =
      splice expand cursor text found := by
  induction found generalizing cursor text with
  | nil => rfl
  | cons occurrence found ih =>
      have start : (occurrence.shift distance).start - (cursor + distance) =
          occurrence.start - cursor := Nat.add_sub_add_right _ _ _
      have stop : (occurrence.shift distance).stop - (cursor + distance) =
          occurrence.stop - cursor := by
        rw [occurrence.stop_shift]
        exact Nat.add_sub_add_right _ _ _
      rw [List.map_cons, splice, splice, start, stop, same, occurrence.stop_shift, ih]

end Splice

namespace Rule

theorem expand_shift (rule : Rule) (distance : Nat) (occurrence : Occurrence) :
    rule.expand (occurrence.shift distance) = rule.expand occurrence := rfl

theorem apply_append_cons {rule : Rule} {byte : UInt8} (foreign : rule.finder.Foreign byte)
    (left right : Bytes) :
    rule.apply (left ++ byte :: right) = rule.apply left ++ byte :: rule.apply right := by
  have inside : ∀ occurrence ∈ rule.finder.findAll left,
      0 ≤ occurrence.start ∧ occurrence.stop ≤ 0 + left.length := by
    intro occurrence picked
    obtain ⟨choice, best⟩ := Finder.bestFit_of_mem_findAll picked
    rw [Nat.zero_add]
    exact ⟨Nat.zero_le _, best.stop_le⟩
  have after : ∀ occurrence ∈ (rule.finder.findAll right).map (Occurrence.shift (left.length + 1)),
      0 + left.length + [byte].length ≤ occurrence.start := by
    intro occurrence picked
    obtain ⟨original, _, rfl⟩ := List.mem_map.mp picked
    simp only [Occurrence.shift, List.length_singleton]
    omega
  have ordered := (rule.finder.findFrom_scanned left 0).ordered
  have place : 0 + left.length + [byte].length = 0 + (left.length + 1) := by
    rw [List.length_singleton, Nat.add_assoc]
  rw [apply_eq_splice, apply_eq_splice, apply_eq_splice, foreign.findAll_append,
    splice_append _ inside ordered fun occurrence picked =>
      Nat.le_trans (Nat.le_add_right _ _) (after occurrence picked),
    ← List.singleton_append, splice_kept _ _ after, place, splice_shift (rule.expand_shift _)]
  rfl

/-- A byte that no branch contains parts a text for a rule, unless it is a part of
a word and the rule looks at the edges of words.  That holds also if the rule finds
the empty text beside it. -/
theorem apply_foreign_byte (rule : Rule) (byte : UInt8)
    (unlisted : ∀ position ∈ rule.finder.pattern.positions, ∀ branch ∈ position.branches,
      byte ∉ utf8 branch)
    (apart : rule.finder.boundary = true → isWordByte byte = false) (left right : Bytes) :
    rule.apply (left ++ [byte] ++ right) = rule.apply left ++ [byte] ++ rule.apply right := by
  have foreign := Finder.foreign_of_unlisted unlisted apart
  rw [List.append_assoc, List.singleton_append, apply_append_cons foreign, List.append_assoc,
    List.singleton_append]

/-- The empty branch is taken at the edges of words on either side of a byte that is
no text. -/
theorem apply_foreign_byte_beside_empty :
    ∃ rule, Rule.ofExprs "a," "x,-" true = .ok rule ∧
      rule.apply (utf8 "ba" ++ [0xFF] ++ utf8 "a") = utf8 "-ba-" ++ [0xFF] ++ utf8 "x" := by
  have made : Rule.ofExprs "a," "x,-" true =
      .ok (.ofTable ⟨[.mk [("a", "x"), ("", "-")]]⟩ true) := by
    decide +kernel
  refine ⟨_, made, ?_⟩
  rw [apply_foreign_byte _ 0xFF (by decide) (by decide)]
  decide

end Rule

end WordSubst
