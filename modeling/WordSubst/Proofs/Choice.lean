import Mathlib.Data.List.Forall2
import Mathlib.Data.List.Lex

namespace WordSubst

variable {α : Type u} {β : Type v}

def pick : (slots : List (List α)) → (choice : List Nat) → Option (List α)
  | [], [] => some []
  | slot :: slots, index :: rest =>
    slot[index]?.bind fun a => (pick slots rest).map (a :: ·)
  | _, _ => none

/-- All choices, in lexicographic order. -/
def choices : (slots : List (List α)) → List (List Nat)
  | [] => [[]]
  | slot :: slots =>
    (List.range slot.length).flatMap fun index => (choices slots).map (index :: ·)

theorem pick_nil_eq_some_iff {choice : List Nat} {picked : List α} :
    pick [] choice = some picked ↔ choice = [] ∧ picked = [] := by
  cases choice with
  | nil => simp [pick, eq_comm]
  | cons index rest => simp [pick]

theorem pick_cons_eq_some_iff {slot : List α} {slots : List (List α)} {choice : List Nat}
    {picked : List α} :
    pick (slot :: slots) choice = some picked ↔
      ∃ index rest a later, choice = index :: rest ∧ picked = a :: later ∧
        slot[index]? = some a ∧ pick slots rest = some later := by
  cases choice with
  | nil => simp [pick]
  | cons index rest =>
      simp only [pick, Option.bind_eq_some_iff, Option.map_eq_some_iff]
      constructor
      · intro ⟨a, named, later, found, taken⟩
        exact ⟨index, rest, a, later, rfl, taken.symm, named, found⟩
      · intro ⟨_, _, a, later, same, taken, named, found⟩
        cases same
        exact ⟨a, named, later, found, taken.symm⟩

theorem exists_mem_slot_of_pick {slots : List (List α)} {choice : List Nat} {picked : List α}
    (found : pick slots choice = some picked) {a : α} (member : a ∈ picked) :
    ∃ slot ∈ slots, a ∈ slot := by
  induction slots generalizing choice picked with
  | nil =>
      obtain ⟨_, rfl⟩ := pick_nil_eq_some_iff.mp found
      cases member
  | cons slot slots ih =>
      obtain ⟨index, rest, first, later, rfl, rfl, named, found⟩ := pick_cons_eq_some_iff.mp found
      rcases List.mem_cons.mp member with rfl | inLater
      · exact ⟨slot, .head _, List.mem_of_getElem? named⟩
      · obtain ⟨other, listed, inOther⟩ := ih found inLater
        exact ⟨other, .tail _ listed, inOther⟩

theorem exists_getElem?_of_pick {slots : List (List α)} {choice : List Nat} {picked : List α}
    (found : pick slots choice = some picked) {place : Nat} (inside : place < slots.length) :
    ∃ index a, choice[place]? = some index ∧ picked[place]? = some a ∧
      slots[place]?.bind (·[index]?) = some a := by
  induction slots generalizing choice picked place with
  | nil => cases inside
  | cons slot slots ih =>
      obtain ⟨index, rest, first, later, rfl, rfl, named, found⟩ := pick_cons_eq_some_iff.mp found
      cases place with
      | zero => exact ⟨index, first, rfl, rfl, named⟩
      | succ place => exact ih found (Nat.lt_of_succ_lt_succ inside)

theorem exists_mem_pick_of_slot {slots : List (List α)} {choice : List Nat} {picked : List α}
    (found : pick slots choice = some picked) {slot : List α} (listed : slot ∈ slots) :
    ∃ a ∈ picked, a ∈ slot := by
  induction slots generalizing choice picked with
  | nil => cases listed
  | cons first slots ih =>
      obtain ⟨index, rest, a, later, rfl, rfl, named, found⟩ := pick_cons_eq_some_iff.mp found
      rcases List.mem_cons.mp listed with rfl | inRest
      · exact ⟨a, .head _, List.mem_of_getElem? named⟩
      · obtain ⟨b, taken, inSlot⟩ := ih found inRest
        exact ⟨b, .tail _ taken, inSlot⟩

theorem exists_pick_iff {slots : List (List α)} {picked : List α} :
    (∃ choice, pick slots choice = some picked) ↔ List.Forall₂ (· ∈ ·) picked slots := by
  induction slots generalizing picked with
  | nil => simp [pick_nil_eq_some_iff]
  | cons slot slots ih =>
      simp only [pick_cons_eq_some_iff, List.forall₂_cons_right_iff, ← ih]
      constructor
      · rintro ⟨_, index, rest, a, later, _, rfl, named, found⟩
        exact ⟨a, later, List.mem_of_getElem? named, ⟨rest, found⟩, rfl⟩
      · rintro ⟨a, later, listed, ⟨rest, found⟩, rfl⟩
        obtain ⟨index, named⟩ := List.mem_iff_getElem?.mp listed
        exact ⟨_, index, rest, a, later, rfl, rfl, named, found⟩

theorem length_of_pick {slots : List (List α)} {choice : List Nat} {picked : List α}
    (found : pick slots choice = some picked) : picked.length = slots.length :=
  (exists_pick_iff.mp ⟨choice, found⟩).length_eq

theorem pick_concat_eq_some_iff {slots : List (List α)} {slot : List α} {choice : List Nat}
    {picked : List α} :
    pick (slots ++ [slot]) choice = some picked ↔
      ∃ rest index before a, choice = rest ++ [index] ∧ picked = before ++ [a] ∧
        pick slots rest = some before ∧ slot[index]? = some a := by
  induction slots generalizing choice picked with
  | nil =>
      simp only [List.nil_append, pick_cons_eq_some_iff, pick_nil_eq_some_iff]
      constructor
      · rintro ⟨index, _, a, _, rfl, rfl, named, rfl, rfl⟩
        exact ⟨[], index, [], a, rfl, rfl, ⟨rfl, rfl⟩, named⟩
      · rintro ⟨_, index, _, a, rfl, rfl, ⟨rfl, rfl⟩, named⟩
        exact ⟨index, [], a, [], rfl, rfl, named, rfl, rfl⟩
  | cons first slots ih =>
      simp only [List.cons_append, pick_cons_eq_some_iff, ih]
      constructor
      · rintro ⟨index, _, a, _, rfl, rfl, named, rest, last, before, b, rfl, rfl, found, namedLast⟩
        exact ⟨index :: rest, last, a :: before, b, rfl, rfl,
          ⟨index, rest, a, before, rfl, rfl, named, found⟩, namedLast⟩
      · rintro ⟨_, last, _, b, rfl, rfl, ⟨index, rest, a, before, rfl, rfl, named, found⟩,
          namedLast⟩
        exact ⟨index, rest ++ [last], a, before ++ [b], rfl, rfl, named, rest, last, before, b,
          rfl, rfl, found, namedLast⟩

/-- The last index counts only for what it names. -/
theorem pick_concat_congr {slot other : List α} {index otherIndex : Nat}
    (same : slot[index]? = other[otherIndex]?) (slots : List (List α)) (rest : List Nat) :
    pick (slots ++ [slot]) (rest ++ [index]) = pick (slots ++ [other]) (rest ++ [otherIndex]) := by
  induction slots generalizing rest with
  | nil =>
      cases rest with
      | nil => simp [pick, same]
      | cons first rest => cases rest <;> simp [pick]
  | cons first slots ih =>
      cases rest with
      | nil => cases slots <;> simp [pick]
      | cons first rest => simp [pick, ih]

theorem pick_map (f : α → β) (slots : List (List α)) (choice : List Nat) :
    pick (slots.map (List.map f)) choice = (pick slots choice).map (List.map f) := by
  induction slots generalizing choice with
  | nil => cases choice <;> rfl
  | cons slot slots ih =>
      cases choice with
      | nil => rfl
      | cons index rest =>
          simp only [List.map_cons, pick, ih, List.getElem?_map]
          cases slot[index]? with
          | none => rfl
          | some a => cases pick slots rest <;> rfl

theorem mem_choices_iff {slots : List (List α)} {choice : List Nat} :
    choice ∈ choices slots ↔ ∃ picked, pick slots choice = some picked := by
  induction slots generalizing choice with
  | nil => simp [choices, pick_nil_eq_some_iff]
  | cons slot slots ih =>
      simp only [choices, List.mem_flatMap, List.mem_range, List.mem_map, ih,
        pick_cons_eq_some_iff]
      constructor
      · intro ⟨index, inside, rest, ⟨later, found⟩, chosen⟩
        exact ⟨_, index, rest, slot[index], later, chosen.symm, rfl,
          List.getElem?_eq_getElem inside, found⟩
      · intro ⟨_, index, rest, a, later, chosen, _, named, found⟩
        have inside := (List.getElem?_eq_some_iff.mp named).1
        exact ⟨index, inside, rest, ⟨later, found⟩, chosen.symm⟩

theorem choices_ne_nil {slots : List (List α)} (nonempty : ∀ slot ∈ slots, slot ≠ []) :
    choices slots ≠ [] := by
  induction slots with
  | nil => simp [choices]
  | cons slot slots ih =>
      have positive := List.length_pos_iff.mpr (nonempty slot (.head _))
      obtain ⟨rest, later⟩ := List.exists_mem_of_ne_nil _
        (ih fun other member => nonempty other (.tail _ member))
      have first : 0 :: rest ∈ choices (slot :: slots) := by
        rw [choices, List.mem_flatMap]
        exact ⟨0, List.mem_range.mpr positive, List.mem_map.mpr ⟨rest, later, rfl⟩⟩
      exact List.ne_nil_of_mem first

theorem pairwise_choices (slots : List (List α)) : (choices slots).Pairwise (· < ·) := by
  induction slots with
  | nil => simp [choices]
  | cons slot slots ih =>
      rw [choices, List.pairwise_flatMap]
      constructor
      · intro index _
        rw [List.pairwise_map]
        exact ih.imp fun less => List.cons_lt_cons_iff.mpr (.inr ⟨rfl, less⟩)
      · apply List.pairwise_lt_range.imp
        intro index otherIndex less choice inFirst other inSecond
        obtain ⟨rest, _, rfl⟩ := List.mem_map.mp inFirst
        obtain ⟨otherRest, _, rfl⟩ := List.mem_map.mp inSecond
        exact List.cons_lt_cons_iff.mpr (.inl less)

/-- The first choice in the list that is accepted is the least. -/
theorem find?_choices_of_least {slots : List (List α)} {accept : List Nat → Bool}
    {choice : List Nat} (listed : choice ∈ choices slots) (accepted : accept choice = true)
    (least : ∀ other, accept other = true → choice ≤ other) :
    (choices slots).find? accept = some choice := by
  obtain ⟨lesser, greater, split⟩ := List.append_of_mem listed
  have ordered := pairwise_choices slots
  rw [split, List.pairwise_append] at ordered
  refine List.find?_eq_some_iff_append.mpr ⟨accepted, lesser, greater, split, ?_⟩
  intro other earlier
  have less : other < choice := ordered.2.2 other earlier choice (.head _)
  simp only [Bool.not_eq_true']
  exact Bool.eq_false_iff.mpr fun passes => absurd (least other passes) (not_le_of_gt less)

/-- The lesser of two first indices decides, and for equal ones what follows. -/
theorem cons_le_cons_of {index otherIndex : Nat} {rest otherRest : List Nat}
    (noEarlier : index ≤ otherIndex) (least : index = otherIndex → rest ≤ otherRest) :
    index :: rest ≤ otherIndex :: otherRest := by
  rcases Nat.lt_or_eq_of_le noEarlier with less | rfl
  · exact le_of_lt (List.cons_lt_cons_iff.mpr (.inl less))
  · exact List.cons_le_cons index (least rfl)

end WordSubst
