import WordSubst.Proofs.Rule.Splice
import WordSubst.Proofs.Text.CharEdge

namespace WordSubst

section Splice

variable {line : String} {found : List Occurrence} {parts texts : List Bytes}

theorem isUtf8_gaps {cursor : Nat} (first : CharEdge line cursor)
    (edges : ∀ occurrence ∈ found,
      CharEdge line occurrence.start ∧ CharEdge line occurrence.stop) :
    ∀ gap ∈ gaps (utf8 line) cursor found, IsUtf8 gap := by
  induction found generalizing cursor with
  | nil =>
      rw [gaps, List.forall_mem_singleton]
      exact isUtf8_cut first (charEdge_length line)
  | cons occurrence later ih =>
      obtain ⟨⟨start, stop⟩, edges⟩ := List.forall_mem_cons.mp edges
      rw [gaps, List.forall_mem_cons]
      exact ⟨isUtf8_cut first start, ih stop edges⟩

theorem isUtf8_flatten (all : ∀ part ∈ parts, IsUtf8 part) : IsUtf8 parts.flatten := by
  induction parts with
  | nil => exact isUtf8_nil
  | cons part parts ih =>
      obtain ⟨first, rest⟩ := List.forall_mem_cons.mp all
      exact first.append (ih rest)

theorem isUtf8_interleave (between : ∀ part ∈ parts, IsUtf8 part)
    (all : ∀ text ∈ texts, IsUtf8 text) : IsUtf8 (interleave parts texts) := by
  fun_induction interleave parts texts with
  | case1 gap gaps text texts ih =>
      obtain ⟨isGap, gaps⟩ := List.forall_mem_cons.mp between
      obtain ⟨isText, texts⟩ := List.forall_mem_cons.mp all
      exact (isGap.append isText).append (ih gaps texts)
  | case2 gaps texts => exact isUtf8_flatten between

end Splice

theorem Finder.charEdges_of_mem_findAll {finder : Finder}
    (held : finder.boundary = true ∨ finder.Solid) {line : String} {occurrence : Occurrence}
    (picked : occurrence ∈ finder.findAll (utf8 line)) :
    CharEdge line occurrence.start ∧ CharEdge line occurrence.stop := by
  obtain ⟨choice, best⟩ := bestFit_of_mem_findAll picked
  rcases held with bounded | solid
  · obtain ⟨first, last⟩ := best.edges bounded
    exact ⟨charEdge_of_isEdge first, charEdge_of_isEdge last⟩
  · have something := solid choice occurrence.pieces best.picked
    have stands := best.here
    obtain ⟨literals, _, spelled⟩ := pick_slots_eq_some_iff.mp best.picked
    rw [spelled, ← utf8_join] at something stands
    rw [Occurrence.stop, Occurrence.text, spelled, ← utf8_join]
    exact charEdge_of_prefix (fun blank => something (utf8_eq_nil_iff.mpr blank)) stands

/-- With `boundary`, or with a position that has no empty branch, all that is found in
a text that is UTF-8 begins and ends between its characters, and the text with all of
it replaced is UTF-8. -/
theorem Rule.apply_isUtf8 {source target : String} {boundary : Bool} {rule : Rule}
    (made : Rule.ofExprs source target boundary = .ok rule)
    (held : boundary = true ∨
      ∃ position ∈ rule.finder.pattern.positions, "" ∉ position.branches) (line : String) :
    (∀ occurrence ∈ rule.finder.findAll (utf8 line),
        CharEdge line occurrence.start ∧ CharEdge line occurrence.stop) ∧
      IsUtf8 (rule.apply (utf8 line)) := by
  obtain ⟨_, _, rfl⟩ := Rule.ofExprs_eq_ok_iff.mp made
  have edges : ∀ occurrence ∈ rule.finder.findAll (utf8 line),
      CharEdge line occurrence.start ∧ CharEdge line occurrence.stop :=
    fun occurrence => Finder.charEdges_of_mem_findAll (held.imp_right Finder.solid_of_position)
  have expanded : ∀ text ∈ (rule.finder.findAll (utf8 line)).map rule.expand, IsUtf8 text := by
    rw [List.forall_mem_map]
    intro occurrence picked
    obtain ⟨choice, best⟩ := Finder.bestFit_of_mem_findAll picked
    obtain ⟨replacement, _, expanded⟩ := Rule.expand_eq best.picked
    exact ⟨replacement, expanded⟩
  have whole := isUtf8_interleave (isUtf8_gaps (charEdge_zero line) edges) expanded
  rw [← Finder.splice_findAll, ← Rule.apply_eq_splice] at whole
  exact ⟨edges, whole⟩

/-- An empty branch next to accents with `boundary`, and one in the second position
without. -/
theorem Rule.apply_isUtf8_accents :
    (∃ rule, Rule.ofExprs "é," "<,>" true = .ok rule ∧
        rule.apply (utf8 "éa é") = utf8 "é>a> é" ∧
        ∀ line, (∀ occurrence ∈ rule.finder.findAll (utf8 line),
            CharEdge line occurrence.start ∧ CharEdge line occurrence.stop) ∧
          IsUtf8 (rule.apply (utf8 line))) ∧
      ∃ rule, Rule.ofExprs "é,ñ/é," "e,n/-," false = .ok rule ∧
        rule.apply (utf8 "ñéñ…") = utf8 "n-n…" ∧
        ∀ line, (∀ occurrence ∈ rule.finder.findAll (utf8 line),
            CharEdge line occurrence.start ∧ CharEdge line occurrence.stop) ∧
          IsUtf8 (rule.apply (utf8 line)) := by
  have bounded : Rule.ofExprs "é," "<,>" true =
      .ok (.ofTable ⟨[.mk [("é", "<"), ("", ">")]]⟩ true) := by
    decide +kernel
  have solid : Rule.ofExprs "é,ñ/é," "e,n/-," false =
      .ok (.ofTable ⟨[.mk [("é", "e"), ("ñ", "n")], .mk [("é", "-"), ("", "")]]⟩ false) := by
    decide +kernel
  exact ⟨⟨_, bounded, by decide, Rule.apply_isUtf8 bounded (.inl rfl)⟩,
    ⟨_, solid, by decide, Rule.apply_isUtf8 solid (.inr (by decide))⟩⟩

/-- Without either, the empty text is found within a character. -/
example : (Rule.ofTable ⟨[.mk [("", "-")]]⟩ false).apply (utf8 "é") =
    utf8 "-" ++ [0xC3] ++ utf8 "-" ++ [0xA9] ++ utf8 "-" := by
  decide

end WordSubst
