import WordSubst.Finder
import WordSubst.Proofs.Choice

namespace WordSubst

def cut (text : Bytes) (span : Nat × Nat) : Bytes :=
  (text.drop span.1).take (span.2 - span.1)

def wordAfter (text : Bytes) (place : Nat) : Bool :=
  text[place]?.any isWordByte

def wordBefore (text : Bytes) : (place : Nat) → Bool
  | 0 => false
  | place + 1 => wordAfter text place

/-- The edge of a word: a word byte stands on one side only. -/
def IsEdge (text : Bytes) (place : Nat) : Prop :=
  wordBefore text place ≠ wordAfter text place

theorem getElem?_edgesAfter {left : Bool} {text : Bytes} {place : Nat}
    (inside : place ≤ text.length) :
    (edgesAfter left text)[place]? =
      some ((if place = 0 then left else wordBefore text place) != wordAfter text place) := by
  induction text generalizing left place with
  | nil =>
      have start : place = 0 := Nat.le_zero.mp inside
      subst start
      simp [edgesAfter, wordAfter]
  | cons byte rest ih =>
      cases place with
      | zero => simp [edgesAfter, wordAfter]
      | succ place =>
          have insideRest : place ≤ rest.length := Nat.le_of_succ_le_succ inside
          rw [edgesAfter, List.getElem?_cons_succ, ih insideRest]
          cases place <;> simp [wordBefore, wordAfter]

theorem getElem?_wordEdges_eq_true_iff {text : Bytes} {place : Nat} :
    (wordEdges text)[place]? = some true ↔ place ≤ text.length ∧ IsEdge text place := by
  by_cases inside : place ≤ text.length
  · rw [wordEdges, getElem?_edgesAfter inside]
    cases place <;> simp [IsEdge, wordBefore, inside]
  · have outside : (wordEdges text).length ≤ place := by
      simp only [wordEdges, length_edgesAfter]
      omega
    simp [List.getElem?_eq_none outside, inside]

/-- The bytes stand in the text at the place and, with `boundary`, between edges. -/
structure Stands (boundary : Bool) (text : Bytes) (place : Nat) (bytes : Bytes) : Prop where
  inside : place ≤ text.length
  here : bytes <+: text.drop place
  edges : boundary = true → IsEdge text place ∧ IsEdge text (place + bytes.length)

theorem Stands.stop_le {boundary : Bool} {text bytes : Bytes} {place : Nat}
    (stands : Stands boundary text place bytes) : place + bytes.length ≤ text.length := by
  have shorter := stands.here.length_le
  have inside := stands.inside
  rw [List.length_drop] at shorter
  omega

namespace Finder

variable {finder : Finder} {text : Bytes} {place : Nat}

/-- The choice fits at the place, and `pieces` is what it takes from the text. -/
structure Fit (finder : Finder) (text : Bytes) (place : Nat) (choice : List Nat)
    (pieces : List Bytes) : Prop
    extends Stands finder.boundary text place pieces.flatten where
  picked : pick finder.slots choice = some pieces

structure BestFit (finder : Finder) (text : Bytes) (place : Nat) (choice : List Nat)
    (pieces : List Bytes) : Prop extends Fit finder text place choice pieces where
  least : ∀ other otherPieces, Fit finder text place other otherPieces → choice ≤ other

theorem BestFit.unique {choice other : List Nat} {pieces otherPieces : List Bytes}
    (best : finder.BestFit text place choice pieces)
    (otherBest : finder.BestFit text place other otherPieces) :
    choice = other ∧ pieces = otherPieces := by
  have same : choice = other :=
    le_antisymm (best.least _ _ otherBest.toFit) (otherBest.least _ _ best.toFit)
  subst same
  exact ⟨rfl, Option.some.inj (best.picked.symm.trans otherBest.picked)⟩

/-- No choice spells the empty text. -/
def Solid (finder : Finder) : Prop :=
  ∀ choice pieces, pick finder.slots choice = some pieces → pieces.flatten ≠ []

theorem solid_of_position
    (full : ∃ position ∈ finder.pattern.positions, "" ∉ position.branches) : finder.Solid := by
  obtain ⟨position, listed, full⟩ := full
  have slot : position.branches.map utf8 ∈ finder.slots := List.mem_map_of_mem listed
  intro choice pieces picked nothing
  obtain ⟨piece, taken, inSlot⟩ := exists_mem_pick_of_slot picked slot
  obtain ⟨branch, inPosition, rfl⟩ := List.mem_map.mp inSlot
  have blank := List.flatten_eq_nil_iff.mp nothing _ taken
  exact full (utf8_eq_nil_iff.mp blank ▸ inPosition)

end Finder

section Ways

variable {slots : List (List Bytes)} {text : Bytes} {ends : List Way}

/-- The choice leads through the slots from the place to an end. -/
structure Leads (ends : List Way) (text : Bytes) (slots : List (List Bytes)) (place : Nat)
    (choice : List Nat) (pieces : List Bytes) : Prop where
  picked : pick slots choice = some pieces
  stands : pieces.flatten <+: text.drop place
  ended : ends[place + pieces.flatten.length]? = some (some [])

/-- The way is that of the least choice that leads through the slots. -/
def Resolved (ends : List Way) (text : Bytes) (slots : List (List Bytes)) (place : Nat) :
    Way → Prop
  | none => ∀ choice pieces, ¬ Leads ends text slots place choice pieces
  | some pieces => ∃ choice, Leads ends text slots place choice pieces ∧
      ∀ other otherPieces, Leads ends text slots place other otherPieces → choice ≤ other

theorem leads_nil_iff {place : Nat} {choice : List Nat} {pieces : List Bytes} :
    Leads ends text [] place choice pieces ↔
      choice = [] ∧ pieces = [] ∧ ends[place]? = some (some []) := by
  constructor
  · intro ⟨picked, _, ended⟩
    obtain ⟨rfl, rfl⟩ := pick_nil_eq_some_iff.mp picked
    exact ⟨rfl, rfl, by simpa using ended⟩
  · intro ⟨chosen, taken, ended⟩
    subst chosen taken
    exact ⟨rfl, by simp, by simpa using ended⟩

theorem leads_cons_iff {branches : List Bytes} {place : Nat} {choice : List Nat}
    {pieces : List Bytes} :
    Leads ends text (branches :: slots) place choice pieces ↔
      ∃ index rest piece later, choice = index :: rest ∧ pieces = piece :: later ∧
        branches[index]? = some piece ∧ piece <+: text.drop place ∧
        Leads ends text slots (place + piece.length) rest later := by
  constructor
  · intro ⟨picked, stands, ended⟩
    obtain ⟨index, rest, piece, later, rfl, rfl, named, found⟩ := pick_cons_eq_some_iff.mp picked
    rw [List.flatten_cons] at stands ended
    obtain ⟨after, split⟩ := stands
    rw [List.append_assoc] at split
    refine ⟨index, rest, piece, later, rfl, rfl, named, ⟨_, split⟩, found, ⟨after, ?_⟩, ?_⟩
    · rw [← List.drop_drop, ← split, List.drop_left]
    · rw [List.length_append, ← Nat.add_assoc] at ended
      exact ended
  · intro ⟨index, rest, piece, later, chosen, taken, named, ⟨after, split⟩, found, stands, ended⟩
    subst chosen taken
    refine ⟨pick_cons_eq_some_iff.mpr ⟨index, rest, piece, later, rfl, rfl, named, found⟩, ?_, ?_⟩
    · rw [← List.drop_drop, ← split, List.drop_left] at stands
      rw [List.flatten_cons, ← split]
      exact (List.prefix_append_right_inj piece).mpr stands
    · rw [List.flatten_cons, List.length_append, ← Nat.add_assoc]
      exact ended

theorem wayAfter_drop_eq_some_iff {branch : Bytes} {known : List Way} {place : Nat}
    {pieces : List Bytes} (aligned : known.length = text.length + 1)
    (inside : place ≤ text.length) :
    wayAfter branch (text.drop place) (known.drop place) = some pieces ↔
      branch <+: text.drop place ∧ known[place + branch.length]? = some (some pieces) := by
  rw [wayAfter_eq_some_iff (by simp only [List.length_drop]; omega), List.getElem?_drop]

/-- A branch that stands at a place and can be followed by a choice is not passed over. -/
theorem wayAfter_ne_none {branch : Bytes} {known : List Way} {place : Nat} {rest : List Nat}
    {later : List Bytes} (aligned : known.length = text.length + 1)
    (resolved : ∀ place way, known[place]? = some way → Resolved ends text slots place way)
    (inside : place ≤ text.length) (stands : branch <+: text.drop place)
    (leads : Leads ends text slots (place + branch.length) rest later) :
    wayAfter branch (text.drop place) (known.drop place) ≠ none := by
  have shorter := stands.length_le
  rw [List.length_drop] at shorter
  have stop : place + branch.length < known.length := by omega
  have resolvedStop := resolved _ _ (List.getElem?_eq_getElem stop)
  cases way : known[place + branch.length] with
  | none =>
      rw [way] at resolvedStop
      exact absurd leads (resolvedStop rest later)
  | some pieces =>
      have known_at : known[place + branch.length]? = some (some pieces) := by
        rw [List.getElem?_eq_getElem stop, way]
      have found := (wayAfter_drop_eq_some_iff aligned inside).mpr ⟨stands, known_at⟩
      simp [found]

/-- One position: if the ways through the positions after it are known, the
preferred way through it is found. -/
theorem resolved_preferred {branches : List Bytes} {known : List Way} {place : Nat}
    (aligned : known.length = text.length + 1)
    (resolved : ∀ place way, known[place]? = some way → Resolved ends text slots place way)
    (inside : place ≤ text.length) :
    Resolved ends text (branches :: slots) place
      (preferred branches (text.drop place) (known.drop place)) := by
  cases found : preferred branches (text.drop place) (known.drop place) with
  | none =>
      intro choice pieces leads
      obtain ⟨index, rest, piece, later, rfl, rfl, named, stands, leads⟩ := leads_cons_iff.mp leads
      have passed := List.findSome?_eq_none_iff.mp found piece (List.mem_of_getElem? named)
      exact wayAfter_ne_none aligned resolved inside stands leads (Option.map_eq_none_iff.mp passed)
  | some pieces =>
      obtain ⟨before, piece, after, rfl, taken, passed⟩ := List.findSome?_eq_some_iff.mp found
      obtain ⟨later, way, rfl⟩ := Option.map_eq_some_iff.mp taken
      obtain ⟨stands, known_at⟩ := (wayAfter_drop_eq_some_iff aligned inside).mp way
      obtain ⟨rest, leads, least⟩ := resolved _ _ known_at
      have taken_leads : Leads ends text ((before ++ piece :: after) :: slots) place
          (before.length :: rest) (piece :: later) :=
        leads_cons_iff.mpr ⟨_, rest, piece, later, rfl, rfl, by simp, stands, leads⟩
      refine ⟨before.length :: rest, taken_leads, ?_⟩
      intro other otherPieces otherWay
      obtain ⟨index, otherRest, otherPiece, otherLater, rfl, rfl, named, otherStands, otherLeads⟩ :=
        leads_cons_iff.mp otherWay
      have noEarlier : before.length ≤ index := by
        -- Each branch before the one taken leads nowhere.
        by_contra earlier
        rw [List.getElem?_append_left (by omega)] at named
        exact wayAfter_ne_none aligned resolved inside otherStands otherLeads
          (Option.map_eq_none_iff.mp (passed otherPiece (List.mem_of_getElem? named)))
      apply cons_le_cons_of noEarlier
      intro sameIndex
      subst sameIndex
      have same : piece = otherPiece := by simpa using named
      subst same
      exact least otherRest otherLater otherLeads

/-- The ways from all places through all positions, found from the last position
to the first. -/
theorem resolved_ways (slots : List (List Bytes)) (aligned : ends.length = text.length + 1)
    (ended : ∀ (place : Nat) pieces, ends[place]? = some (some pieces) → pieces = []) :
    (slots.foldr (fun branches known => throughPosition branches text known) ends).length =
        text.length + 1 ∧
      ∀ place way,
        (slots.foldr (fun branches known => throughPosition branches text known) ends)[place]? =
          some way → Resolved ends text slots place way := by
  -- The fold takes the last slot first, so the invariant is about the slots after it.
  induction slots with
  | nil =>
      refine ⟨aligned, ?_⟩
      intro place way found
      rw [List.foldr_nil] at found
      cases way with
      | none =>
          intro choice pieces leads
          have atEnd := (leads_nil_iff.mp leads).2.2
          simp [found] at atEnd
      | some pieces =>
          have none_taken := ended place pieces found
          subst none_taken
          refine ⟨[], leads_nil_iff.mpr ⟨rfl, rfl, found⟩, ?_⟩
          intro other otherPieces leads
          exact le_of_eq (leads_nil_iff.mp leads).1.symm
  | cons branches slots ih =>
      rw [List.foldr_cons]
      refine ⟨length_throughPosition _ _ _, ?_⟩
      intro place way found
      have inside : place ≤ text.length := by
        have bound := (List.getElem?_eq_some_iff.mp found).1
        rw [length_throughPosition] at bound
        omega
      rw [getElem?_throughPosition inside] at found
      cases found
      exact resolved_preferred ih.1 ih.2 inside

end Ways

namespace Finder

variable {finder : Finder} {text : Bytes} {place : Nat}

def hit? (finder : Finder) (text : Bytes) (place : Nat) : Way :=
  (finder.hits text)[place]?.join

/-- What is found at a place is the way from there, if an occurrence may start there. -/
theorem hit?_eq (finder : Finder) (text : Bytes) (place : Nat) :
    finder.hit? text place =
      if (finder.gates text)[place]? = some true then (finder.ways text)[place]?.join
      else none := by
  rw [hit?, hits, List.getElem?_zipWith]
  cases (finder.gates text)[place]? with
  | none => rfl
  | some gate => cases gate <;> cases (finder.ways text)[place]? <;> rfl

theorem hits_eq_map (finder : Finder) (text : Bytes) :
    finder.hits text = (List.range (text.length + 1)).map (finder.hit? text) := by
  refine List.ext_getElem (by simp) fun place inside _ => ?_
  rw [List.getElem_map, List.getElem_range, hit?, List.getElem?_eq_getElem inside]
  rfl

theorem getElem?_gates_eq_true_iff :
    (finder.gates text)[place]? = some true ↔
      place ≤ text.length ∧ (finder.boundary = true → IsEdge text place) := by
  unfold gates
  split
  · rename_i bounded
    simp [getElem?_wordEdges_eq_true_iff, bounded]
  · rename_i unbounded
    simp only [List.getElem?_replicate, Option.ite_none_right_eq_some, Nat.lt_succ_iff,
      unbounded, Bool.false_eq_true, false_implies, and_true]

theorem getElem?_ends_eq_some_iff {pieces : List Bytes} :
    (finder.ends text)[place]? = some (some pieces) ↔
      pieces = [] ∧ (finder.gates text)[place]? = some true := by
  rw [ends, List.getElem?_map]
  cases (finder.gates text)[place]? with
  | none => simp
  | some gate => cases gate <;> simp [eq_comm]

theorem fit_iff_leads {choice : List Nat} {pieces : List Bytes} :
    finder.Fit text place choice pieces ↔
      (finder.gates text)[place]? = some true ∧
        Leads (finder.ends text) text finder.slots place choice pieces := by
  constructor
  · intro fit
    refine ⟨getElem?_gates_eq_true_iff.mpr ⟨fit.inside, fun bounded => (fit.edges bounded).1⟩,
      fit.picked, fit.here, getElem?_ends_eq_some_iff.mpr ⟨rfl, ?_⟩⟩
    exact getElem?_gates_eq_true_iff.mpr ⟨fit.stop_le, fun bounded => (fit.edges bounded).2⟩
  · intro ⟨opened, picked, stands, ended⟩
    obtain ⟨inside, startEdge⟩ := getElem?_gates_eq_true_iff.mp opened
    obtain ⟨_, closed⟩ := getElem?_ends_eq_some_iff.mp ended
    obtain ⟨_, stopEdge⟩ := getElem?_gates_eq_true_iff.mp closed
    exact ⟨⟨inside, stands, fun bounded => ⟨startEdge bounded, stopEdge bounded⟩⟩, picked⟩

theorem ways_resolved {way : Way} (known : (finder.ways text)[place]? = some way) :
    Resolved (finder.ends text) text finder.slots place way :=
  (resolved_ways finder.slots (finder.length_ends text)
    fun _ _ found => (getElem?_ends_eq_some_iff.mp found).1).2 place way known

/-- What is found at a place is the best fit there, or nothing if nothing fits. -/
theorem hit?_spec (finder : Finder) (text : Bytes) (place : Nat) :
    match finder.hit? text place with
    | some pieces => ∃ choice, finder.BestFit text place choice pieces
    | none => ∀ choice pieces, ¬ finder.Fit text place choice pieces := by
  by_cases opened : (finder.gates text)[place]? = some true
  · have inside : place < (finder.ways text).length := by
      rw [length_ways, ← finder.length_gates text]
      exact (List.getElem?_eq_some_iff.mp opened).1
    have known := List.getElem?_eq_getElem inside
    have resolved := ways_resolved known
    rw [hit?_eq, if_pos opened, known, Option.join_some]
    cases found : (finder.ways text)[place] with
    | none =>
        rw [found] at resolved
        intro choice pieces fit
        exact resolved choice pieces (fit_iff_leads.mp fit).2
    | some pieces =>
        rw [found] at resolved
        obtain ⟨choice, leads, least⟩ := resolved
        exact ⟨choice, fit_iff_leads.mpr ⟨opened, leads⟩,
          fun other otherPieces fit => least other otherPieces (fit_iff_leads.mp fit).2⟩
  · rw [hit?_eq, if_neg opened]
    intro choice pieces fit
    exact opened (fit_iff_leads.mp fit).1

theorem hit?_eq_some_iff {pieces : List Bytes} :
    finder.hit? text place = some pieces ↔ ∃ choice, finder.BestFit text place choice pieces := by
  have spec := finder.hit?_spec text place
  constructor
  · intro found
    rwa [found] at spec
  · intro ⟨choice, best⟩
    cases found : finder.hit? text place with
    | none =>
        rw [found] at spec
        exact absurd best.toFit (spec choice pieces)
    | some otherPieces =>
        rw [found] at spec
        obtain ⟨other, otherBest⟩ := spec
        rw [(best.unique otherBest).2]

theorem hit?_eq_none_iff :
    finder.hit? text place = none ↔ ∀ choice pieces, ¬ finder.Fit text place choice pieces := by
  have spec := finder.hit?_spec text place
  constructor
  · intro found
    rwa [found] at spec
  · intro unfit
    cases found : finder.hit? text place with
    | none => rfl
    | some pieces =>
        rw [found] at spec
        obtain ⟨choice, best⟩ := spec
        exact absurd best.toFit (unfit choice pieces)

theorem hit?_congr {other : Finder} {otherText : Bytes} {otherPlace : Nat}
    (same : ∀ choice pieces,
      finder.Fit text place choice pieces ↔ other.Fit otherText otherPlace choice pieces) :
    finder.hit? text place = other.hit? otherText otherPlace := by
  cases found : other.hit? otherText otherPlace with
  | none =>
      refine hit?_eq_none_iff.mpr fun choice pieces fit => ?_
      exact hit?_eq_none_iff.mp found choice pieces ((same choice pieces).mp fit)
  | some pieces =>
      obtain ⟨choice, best⟩ := hit?_eq_some_iff.mp found
      refine hit?_eq_some_iff.mpr ⟨choice, (same choice pieces).mpr best.toFit, ?_⟩
      intro another anotherPieces fit
      exact best.least another anotherPieces ((same another anotherPieces).mp fit)

end Finder

end WordSubst
