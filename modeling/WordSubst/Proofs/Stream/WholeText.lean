import WordSubst.Proofs.Rule.Locality
import WordSubst.Proofs.Stream.Transcript

namespace WordSubst

section Lines

variable {rule : Rule} {text rest line : Bytes} {lines : List Bytes}

theorem stripReturn_of_getLast? (plain : line.getLast? ≠ some carriageReturn) :
    stripReturn line = line := by
  rw [stripReturn, if_neg plain]

theorem Ends.append_lineFeed (ends : Ends text lines rest) :
    Ends (text ++ [lineFeed]) (lines ++ [rest]) [] := by
  obtain ⟨rfl, inside, after⟩ := ends
  refine ⟨by simp, fun line listed => ?_, List.not_mem_nil⟩
  rcases List.mem_append.mp listed with inLines | last
  · exact inside line inLines
  · rwa [List.mem_singleton.mp last]

theorem Ends.infix_of_mem (ends : Ends text lines rest) (listed : line ∈ lines) :
    line ++ [lineFeed] <:+: text := by
  obtain ⟨before, after, rfl⟩ := List.append_of_mem listed
  rw [ends.joined, List.flatMap_append, List.flatMap_cons]
  exact ⟨before.flatMap (· ++ [lineFeed]), after.flatMap (· ++ [lineFeed]) ++ rest, by simp⟩

/-- Lines are replaced as they are, where no line feed follows a carriage return. -/
theorem Ends.flatMap_line (ends : Ends text lines rest)
    (unpaired : ¬ [carriageReturn, lineFeed] <:+: text) :
    lines.flatMap rule.line = lines.flatMap fun line => rule.apply line ++ [lineFeed] := by
  refine List.flatMap_congr fun line listed => ?_
  have plain : line.getLast? ≠ some carriageReturn := by
    intro returned
    obtain ⟨before, rfl⟩ := List.getLast?_eq_some_iff.mp returned
    have found : [carriageReturn, lineFeed] <:+: before ++ [carriageReturn] ++ [lineFeed] :=
      ⟨before, [], by simp⟩
    exact unpaired (found.trans (ends.infix_of_mem listed))
  rw [Rule.line, stripReturn_of_getLast? plain]

theorem not_infix_append_lineFeed (unpaired : ¬ [carriageReturn, lineFeed] <:+: text)
    (plain : text.getLast? ≠ some carriageReturn) :
    ¬ [carriageReturn, lineFeed] <:+: text ++ [lineFeed] := by
  intro found
  rcases List.infix_concat_iff.mp found with atEnd | within
  · obtain impossible | ⟨before, split, ended⟩ := List.suffix_concat_iff.mp atEnd
    · cases impossible
    · have returned : before = [carriageReturn] := (List.append_inj_left' split rfl).symm
      rw [returned, List.singleton_suffix_iff_getLast?_eq_some] at ended
      exact plain ended
  · exact unpaired within

theorem Rule.apply_lines (parts : rule.finder.Foreign lineFeed) (lines : List Bytes)
    (rest : Bytes) :
    rule.apply (lines.flatMap (· ++ [lineFeed]) ++ rest) =
      (lines.flatMap fun line => rule.apply line ++ [lineFeed]) ++ rule.apply rest := by
  induction lines with
  | nil => rfl
  | cons line lines ih =>
      rw [List.flatMap_cons, List.flatMap_cons, List.append_assoc, List.append_assoc,
        List.append_assoc, List.singleton_append, apply_append_cons parts, ih, List.append_assoc,
        List.singleton_append]

/-- What is written for the lines of an ended text is the text replaced as a whole. -/
theorem Rule.replaceLines_eq_apply (parts : rule.finder.Foreign lineFeed)
    (unpaired : ¬ [carriageReturn, lineFeed] <:+: text ++ [lineFeed]) :
    rule.replaceLines (completeLines (text ++ [lineFeed]) false) =
      rule.apply text ++ [lineFeed] := by
  obtain ⟨lines, rest, _, ends⟩ := splitOn_ends text
  have ended := ends.append_lineFeed
  calc rule.replaceLines (completeLines (text ++ [lineFeed]) false)
      = rule.replaceLines (completeLines (text ++ [lineFeed] ++ []) false) := by
        rw [List.append_nil]
    _ = (lines ++ [rest]).flatMap rule.line := by
        rw [replaceLines_append ended, List.nil_append, replaceLines_unended rule List.not_mem_nil,
          finish, List.isEmpty_nil, if_pos rfl, List.append_nil]
    _ = (lines ++ [rest]).flatMap fun line => rule.apply line ++ [lineFeed] :=
        ended.flatMap_line unpaired
    _ = rule.apply text ++ [lineFeed] := by
        rw [ends.joined, apply_lines parts]
        simp

end Lines

/-- A run over the lines of a text writes what the rule makes of the text as a
whole, in whatever chunks the text comes, if no branch that is searched for
contains a line feed and no line ends with a carriage return. -/
theorem Rule.run_eq_apply_whole (rule : Rule) (text : Bytes)
    (unlisted : ∀ position ∈ rule.finder.pattern.positions, ∀ branch ∈ position.branches,
      lineFeed ∉ utf8 branch)
    (unpaired : ¬ [carriageReturn, lineFeed] <:+: text)
    (plain : text.getLast? ≠ some carriageReturn)
    (deliveries : List Delivery) (arrives : delivered deliveries = text ++ [lineFeed])
    (unfailing : firstFault? deliveries = none)
    (sink : Sink) (fits : ∀ room ∈ sink.room, (rule.apply text ++ [lineFeed]).length ≤ room)
    (flushes : sink.whenFlushed = none) :
    (rule.run deliveries sink).sink.held.toList =
        sink.held.toList ++ (rule.apply text ++ [lineFeed]) ∧
      (rule.run deliveries sink).error? = none := by
  have parts : rule.finder.Foreign lineFeed :=
    Finder.foreign_of_unlisted unlisted fun _ => by decide
  have written : rule.transcript deliveries = rule.apply text ++ [lineFeed] := by
    rw [transcript, Rule.written, Content.ofDeliveries, arrives, unfailing, Option.isSome_none]
    exact replaceLines_eq_apply parts (not_infix_append_lineFeed unpaired plain)
  rw [run_eq_settle, written, unfailing]
  simp only [Sink.settle, Sink.write_of_fits fits, flushes, Option.map_none]
  exact ⟨Array.toList_appendList, trivial⟩

/-- Empty lines, an empty branch, a target with a line feed, and chunks that are cut
within lines. -/
theorem Rule.run_eq_apply_whole_empty_lines :
    ∃ rule deliveries, Rule.ofExprs "a," "x\n,-" false = .ok rule ∧
      deliveries = [.chunk (utf8 "b"), .interrupted, .chunk (utf8 "a\n\n\rc"),
        .chunk (utf8 "\n")] ∧
      rule.apply (utf8 "ba\n\n\rc") = utf8 "-bx\n\n-\n-\r-c-" ∧
      (rule.run deliveries .unlimited).sink.held.toList = utf8 "-bx\n\n-\n-\r-c-\n" ∧
      (rule.run deliveries .unlimited).error? = none := by
  have made : Rule.ofExprs "a," "x\n,-" false =
      .ok (.ofTable ⟨[.mk [("a", "x\n"), ("", "-")]]⟩ false) := by
    decide +kernel
  have applied : (Rule.ofTable ⟨[.mk [("a", "x\n"), ("", "-")]]⟩ false).apply (utf8 "ba\n\n\rc") =
      utf8 "-bx\n\n-\n-\r-c-" := by
    decide
  have whole := Rule.run_eq_apply_whole (.ofTable ⟨[.mk [("a", "x\n"), ("", "-")]]⟩ false)
    (utf8 "ba\n\n\rc") (by decide) (by decide) (by decide)
    [.chunk (utf8 "b"), .interrupted, .chunk (utf8 "a\n\n\rc"), .chunk (utf8 "\n")] (by decide) rfl
    .unlimited (fun _ limited => by cases limited) rfl
  rw [applied] at whole
  exact ⟨_, _, made, rfl, applied, whole⟩

end WordSubst
