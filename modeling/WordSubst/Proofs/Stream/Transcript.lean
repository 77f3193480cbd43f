import Mathlib.Data.List.SplitBy
import WordSubst.Proofs.Rule.Pairing
import WordSubst.Stream

namespace WordSubst

/-- A text cut after each line feed.  What follows the last of them is a line of
its own, unless it is empty. -/
def cutLines (text : Bytes) : List Bytes :=
  text.splitBy fun byte _ => byte != lineFeed

def isEnded (line : Bytes) : Bool :=
  line.getLast? == some lineFeed

/-- A line without the line feed that may end it. -/
def stripFeed (line : Bytes) : Bytes :=
  if line.getLast? = some lineFeed then line.dropLast else line

/-- The lines that end in a text, each without its line feed, and what follows the last. -/
structure Ends (text : Bytes) (lines : List Bytes) (rest : Bytes) : Prop where
  joined : text = lines.flatMap (· ++ [lineFeed]) ++ rest
  inside : ∀ line ∈ lines, lineFeed ∉ line
  after : lineFeed ∉ rest

section Lines

variable {text line rest : Bytes} {lines : List Bytes}

@[simp] theorem stripFeed_append_lineFeed (line : Bytes) :
    stripFeed (line ++ [lineFeed]) = line := by
  simp [stripFeed]

theorem stripFeed_of_not_mem (unended : lineFeed ∉ line) : stripFeed line = line := by
  rw [stripFeed, if_neg]
  intro last
  exact unended (List.mem_of_getLast? last)

@[simp] theorem isEnded_append_lineFeed (line : Bytes) : isEnded (line ++ [lineFeed]) = true := by
  simp [isEnded]

theorem isEnded_of_not_mem (unended : lineFeed ∉ line) : isEnded line = false := by
  rw [isEnded, beq_eq_false_iff_ne]
  intro last
  exact unended (List.mem_of_getLast? last)

theorem isChain_of_not_mem (unended : lineFeed ∉ line) (last : UInt8) :
    (line ++ [last]).IsChain fun byte _ => byte != lineFeed := by
  induction line with
  | nil => simp
  | cons byte rest ih =>
      simp only [List.mem_cons, not_or] at unended
      rw [List.cons_append]
      refine List.isChain_cons.mpr ⟨fun _ _ => ?_, ih unended.2⟩
      exact bne_iff_ne.mpr (Ne.symm unended.1)

theorem cutLines_of_not_mem (unended : lineFeed ∉ line) :
    cutLines line = if line = [] then [] else [line] := by
  cases List.eq_nil_or_concat' line with
  | inl nothing => simp [nothing, cutLines]
  | inr split =>
      obtain ⟨before, last, rfl⟩ := split
      have ahead : lineFeed ∉ before := fun member => unended (by simp [member])
      rw [if_neg (by simp), cutLines]
      exact List.splitBy_of_isChain (by simp) (isChain_of_not_mem ahead last)

theorem cutLines_append_lineFeed (unended : lineFeed ∉ line) (text : Bytes) :
    cutLines (line ++ [lineFeed] ++ text) = (line ++ [lineFeed]) :: cutLines text := by
  have single : cutLines (line ++ [lineFeed]) = [line ++ [lineFeed]] :=
    List.splitBy_of_isChain (by simp) (isChain_of_not_mem unended lineFeed)
  have cut : cutLines (line ++ [lineFeed] ++ text) =
      cutLines (line ++ [lineFeed]) ++ cutLines text := List.splitBy_append (by simp)
  rw [cut, single, List.singleton_append]

theorem Ends.cutLines_append (ends : Ends text lines rest) (later : Bytes) :
    cutLines (text ++ later) = lines.map (· ++ [lineFeed]) ++ cutLines (rest ++ later) := by
  obtain ⟨rfl, inside, _⟩ := ends
  induction lines with
  | nil => rfl
  | cons line lines ih =>
      have unended := inside line (.head _)
      have others := ih fun other member => inside other (.tail _ member)
      rw [List.flatMap_cons, List.append_assoc, List.append_assoc, cutLines_append_lineFeed unended,
        ← List.append_assoc, others, List.map_cons, List.cons_append]

/-- Cutting at the line feeds leaves the lines that end, and what follows the last. -/
theorem splitOn_ends (text : Bytes) :
    ∃ lines rest, text.splitOn lineFeed = lines ++ [rest] ∧ Ends text lines rest := by
  induction text with
  | nil => exact ⟨[], [], rfl, rfl, by simp, by simp⟩
  | cons byte text ih =>
      obtain ⟨lines, rest, split, joined, inside, after⟩ := ih
      rw [List.splitOn_cons_eq_if_modifyHead]
      by_cases feed : byte = lineFeed
      · subst feed
        refine ⟨[] :: lines, rest, by simp [split], by simp [joined], ?_, after⟩
        exact List.forall_mem_cons.mpr ⟨List.not_mem_nil, inside⟩
      · rw [if_neg (by simpa using feed), split]
        cases lines with
        | nil =>
            refine ⟨[], byte :: rest, rfl, by simpa using joined, inside, ?_⟩
            simpa [Ne.symm feed] using after
        | cons line lines =>
            obtain ⟨unended, others⟩ := List.forall_mem_cons.mp inside
            refine ⟨(byte :: line) :: lines, rest, rfl, by simp [joined], ?_, after⟩
            refine List.forall_mem_cons.mpr ⟨?_, others⟩
            simpa [Ne.symm feed] using unended

theorem splitOn_append_of_not_mem (unended : lineFeed ∉ line) (text : Bytes) :
    (line ++ text).splitOn lineFeed = (text.splitOn lineFeed).modifyHead (line ++ ·) := by
  induction line with
  | nil => cases split : text.splitOn lineFeed <;> simp [split]
  | cons byte line ih =>
      simp only [List.mem_cons, not_or] at unended
      rw [List.cons_append, List.splitOn_cons_eq_if_modifyHead, ih unended.2,
        if_neg (by simpa using Ne.symm unended.1), List.modifyHead_modifyHead]
      rfl

/-- A chunk is taken in by the lines that end with it, and what follows them is kept. -/
theorem Rule.feed_ends (rule : Rule) (unended : lineFeed ∉ line) (chunk : Bytes) :
    ∃ lines rest, Ends (line ++ chunk) lines rest ∧
      rule.feed line chunk = (lines.flatMap rule.line, rest) := by
  obtain ⟨lines, rest, split, ends⟩ := splitOn_ends (line ++ chunk)
  rw [splitOn_append_of_not_mem unended] at split
  refine ⟨lines, rest, ends, ?_⟩
  simp only [feed, split, List.dropLast_concat, List.getLast?_concat, Option.getD_some]

end Lines

/-- The text that arrives before the first fault. -/
def delivered : List Delivery → Bytes
  | .chunk bytes :: later => bytes ++ delivered later
  | .interrupted :: later => delivered later
  | .failed _ :: _ | [] => []

def firstFault? : List Delivery → Option Fault
  | .failed fault :: _ => some fault
  | .chunk _ :: later | .interrupted :: later => firstFault? later
  | [] => none

/-- The lines to be replaced.  A last line that is not ended counts only if
nothing failed before its end could be read. -/
def completeLines (text : Bytes) (failed : Bool) : List Bytes :=
  if failed then (cutLines text).filter isEnded else cutLines text

def Rule.replaceLines (rule : Rule) (lines : List Bytes) : Bytes :=
  lines.flatMap fun line => rule.apply (stripReturn (stripFeed line)) ++ [lineFeed]

/-- What a stream brings: its text up to the first fault, and that fault. -/
structure Content where
  text : Bytes
  fault? : Option Fault
  deriving DecidableEq

def Content.ofDeliveries (deliveries : List Delivery) : Content :=
  ⟨delivered deliveries, firstFault? deliveries⟩

/-- What a rule makes of a content, if everything can be written. -/
def Rule.written (rule : Rule) (content : Content) : Bytes :=
  rule.replaceLines (completeLines content.text content.fault?.isSome)

def Rule.transcript (rule : Rule) (deliveries : List Delivery) : Bytes :=
  rule.written (.ofDeliveries deliveries)

section Lines

variable {rule : Rule} {text rest : Bytes} {lines : List Bytes} {failed : Bool}

/-- The lines that ended are settled, whatever comes after them. -/
theorem replaceLines_append (ends : Ends text lines rest) (later : Bytes) :
    rule.replaceLines (completeLines (text ++ later) failed) =
      lines.flatMap rule.line ++ rule.replaceLines (completeLines (rest ++ later) failed) := by
  have settled : (lines.map (· ++ [lineFeed])).filter isEnded = lines.map (· ++ [lineFeed]) := by
    simp [List.filter_eq_self]
  have written : rule.replaceLines (lines.map (· ++ [lineFeed])) = lines.flatMap rule.line := by
    simp only [Rule.replaceLines, List.flatMap_map, stripFeed_append_lineFeed]
    rfl
  have cut : completeLines (text ++ later) failed =
      lines.map (· ++ [lineFeed]) ++ completeLines (rest ++ later) failed := by
    cases failed <;> simp [completeLines, ends.cutLines_append, settled]
  rw [cut, ← written, Rule.replaceLines, List.flatMap_append]
  rfl

theorem replaceLines_unended (rule : Rule) (unended : lineFeed ∉ rest) :
    rule.replaceLines (completeLines rest false) = rule.finish rest := by
  by_cases nothing : rest = []
  · simp [nothing, completeLines, cutLines, Rule.replaceLines, Rule.finish]
  · simp [nothing, completeLines, cutLines_of_not_mem unended, Rule.replaceLines, Rule.finish,
      stripFeed_of_not_mem unended, Rule.line]

theorem replaceLines_discarded (rule : Rule) (unended : lineFeed ∉ rest) :
    rule.replaceLines (completeLines rest true) = [] := by
  by_cases nothing : rest = []
  · simp [nothing, completeLines, cutLines, Rule.replaceLines]
  · simp [nothing, completeLines, cutLines_of_not_mem unended, isEnded_of_not_mem unended,
      Rule.replaceLines]

end Lines

namespace Sink

theorem appendList_append (held : Array UInt8) (first second : Bytes) :
    held ++ (first ++ second) = held ++ first ++ second := by
  apply Array.toList_inj.mp
  simp only [Array.toList_appendList, List.append_assoc]

theorem write_nil (sink : Sink) : sink.write [] = (sink, none) := by
  obtain ⟨held, room, whenFull, whenFlushed⟩ := sink
  cases room <;> simp [write]

theorem write_of_fits {sink : Sink} {bytes : Bytes}
    (fits : ∀ room ∈ sink.room, bytes.length ≤ room) :
    sink.write bytes =
      ({ sink with held := sink.held ++ bytes, room := sink.room.map (· - bytes.length) },
        none) := by
  unfold write
  cases limit : sink.room with
  | none => simp
  | some room => simp [fits room limit]

theorem write_of_overflow {sink : Sink} {bytes : Bytes} {room : Nat} (limit : sink.room = some room)
    (exceeds : room < bytes.length) :
    sink.write bytes =
      ({ sink with held := sink.held ++ bytes.take room, room := some 0 }, some sink.whenFull) := by
  simp only [write, limit, if_neg (Nat.not_le_of_lt exceeds)]

/-- Writing in two parts is writing the whole; where the first part does not fit,
the second is not tried. -/
theorem write_append (sink : Sink) (first second : Bytes) :
    sink.write (first ++ second) =
      match sink.write first with
      | (sink, some fault) => (sink, some fault)
      | (sink, none) => sink.write second := by
  cases limit : sink.room with
  | none => simp [write, limit, appendList_append]
  | some room =>
      by_cases fits : first.length ≤ room
      · simp only [write, limit, if_pos fits]
        by_cases rest : second.length ≤ room - first.length
        · have whole : (first ++ second).length ≤ room := by
            rw [List.length_append]
            omega
          rw [if_pos rest, if_pos whole, appendList_append, List.length_append, Nat.sub_sub]
        · have exceeds : ¬ (first ++ second).length ≤ room := by
            rw [List.length_append]
            omega
          rw [if_neg rest, if_neg exceeds, List.take_append, List.take_of_length_le fits,
            appendList_append]
      · have exceeds : room < (first ++ second).length := by
          rw [List.length_append]
          omega
        rw [write_of_overflow limit exceeds, write_of_overflow limit (Nat.lt_of_not_le fits),
          List.take_append_of_le_length (by omega)]

end Sink

/-- How a run ends if it writes `output` and the input then fails with `fault`,
or is over. -/
def Sink.settle (sink : Sink) (output : Bytes) (fault : Option Fault) : Outcome :=
  match sink.write output, fault with
  | (sink, some full), _ => ⟨sink, some (.writeOutput full)⟩
  | (sink, none), some fault => ⟨sink, some (.readInput fault)⟩
  | (sink, none), none => ⟨sink, sink.whenFlushed.map .writeOutput⟩

theorem Sink.settle_append (sink : Sink) (first second : Bytes) (fault : Option Fault) :
    sink.settle (first ++ second) fault =
      match sink.write first with
      | (sink, some full) => ⟨sink, some (.writeOutput full)⟩
      | (sink, none) => sink.settle second fault := by
  unfold settle
  rw [write_append]
  rcases sink.write first with ⟨sink, full | _⟩ <;> rfl

/-- A run writes the lines one after the other, but what comes of it is what would
come of writing all of them at once. -/
theorem Rule.runFrom_eq_settle (rule : Rule) {pending : Bytes} (unended : lineFeed ∉ pending)
    (deliveries : List Delivery) (sink : Sink) :
    rule.runFrom pending deliveries sink =
      sink.settle (rule.replaceLines (completeLines (pending ++ delivered deliveries)
        (firstFault? deliveries).isSome)) (firstFault? deliveries) := by
  -- What is pending never holds a line feed: each chunk ends some lines and leaves such a rest.
  induction deliveries generalizing pending sink with
  | nil =>
      have written : rule.replaceLines (completeLines pending false) = rule.finish pending :=
        replaceLines_unended rule unended
      simp only [delivered, firstFault?, List.append_nil, Option.isSome_none, written]
      simp only [runFrom, close, Sink.settle]
      rcases sink.write (rule.finish pending) with ⟨sink, full | _⟩ <;> rfl
  | cons delivery later ih =>
      cases delivery with
      | chunk bytes =>
          obtain ⟨lines, rest, ends, fed⟩ := rule.feed_ends unended bytes
          simp only [delivered, firstFault?, ← List.append_assoc]
          rw [replaceLines_append ends, Sink.settle_append]
          simp only [runFrom, fed]
          rcases sink.write (lines.flatMap rule.line) with ⟨sink, full | _⟩
          · exact ih ends.after sink
          · rfl
      | interrupted => exact ih unended sink
      | failed fault =>
          have nothing : rule.replaceLines (completeLines pending true) = [] :=
            replaceLines_discarded rule unended
          simp only [delivered, firstFault?, List.append_nil, Option.isSome_some, nothing]
          simp only [runFrom, Sink.settle, Sink.write_nil]

theorem Rule.run_eq_settle (rule : Rule) (deliveries : List Delivery) (sink : Sink) :
    rule.run deliveries sink =
      sink.settle (rule.transcript deliveries) (firstFault? deliveries) :=
  rule.runFrom_eq_settle List.not_mem_nil deliveries sink

/-- A sink that has not room for all that a run would write takes the beginning of
it, and the run ends with the sink's fault.  Otherwise the sink takes all of it,
and the run ends with the first fault of the input or, if there is none, with that
of the last flush. -/
theorem Rule.run_outcome (rule : Rule) (deliveries : List Delivery) (sink : Sink) :
    (∀ room, sink.room = some room → room < (rule.transcript deliveries).length →
      (rule.run deliveries sink).sink.held.toList =
          sink.held.toList ++ (rule.transcript deliveries).take room ∧
        (rule.run deliveries sink).error? = some (.writeOutput sink.whenFull)) ∧
    ((∀ room, sink.room = some room → (rule.transcript deliveries).length ≤ room) →
      (rule.run deliveries sink).sink.held.toList =
          sink.held.toList ++ rule.transcript deliveries ∧
        (rule.run deliveries sink).error? =
          match firstFault? deliveries with
          | some fault => some (.readInput fault)
          | none => sink.whenFlushed.map .writeOutput) := by
  rw [rule.run_eq_settle]
  constructor
  · intro room limit exceeds
    simp only [Sink.settle, Sink.write_of_overflow limit exceeds, Array.toList_appendList, and_self]
  · intro fits
    simp only [Sink.settle, Sink.write_of_fits fits]
    cases firstFault? deliveries with
    | none => exact ⟨Array.toList_appendList, rfl⟩
    | some fault => exact ⟨Array.toList_appendList, rfl⟩

/-- The line ending is cut by a delivery, a line is left unfinished by a fault, and
the sink has room for the one line that is complete or for one byte less. -/
theorem Rule.run_outcome_unfinished_line :
    ∃ rule deliveries, Rule.ofExprs "a" "bb" false = .ok rule ∧
      deliveries = [.chunk (utf8 "a\r"), .interrupted, .chunk (utf8 "\nxa"),
        .failed (.other "disk on fire")] ∧
      rule.transcript deliveries = utf8 "bb\n" ∧
      ((rule.run deliveries ⟨#[], some 2, .nothingWritten, none⟩).sink.held.toList = utf8 "bb" ∧
        (rule.run deliveries ⟨#[], some 2, .nothingWritten, none⟩).error? =
          some (.writeOutput .nothingWritten)) ∧
      ((rule.run deliveries ⟨#[], some 3, .nothingWritten, none⟩).sink.held.toList =
          utf8 "bb\n" ∧
        (rule.run deliveries ⟨#[], some 3, .nothingWritten, none⟩).error? =
          some (.readInput (.other "disk on fire"))) := by
  have made : Rule.ofExprs "a" "bb" false =
      .ok (.ofTable ⟨[.mk [("a", "bb")]]⟩ false) := by
    decide +kernel
  have written : (Rule.ofTable ⟨[.mk [("a", "bb")]]⟩ false).transcript
      [.chunk (utf8 "a\r"), .interrupted, .chunk (utf8 "\nxa"),
        .failed (.other "disk on fire")] = utf8 "bb\n" := by
    decide +kernel
  refine ⟨_, _, made, rfl, written, ?_, ?_⟩
  · have short := (Rule.run_outcome _ _ ⟨#[], some 2, .nothingWritten, none⟩).1 2 rfl
      (by rw [written]; decide)
    rwa [written] at short
  · have long := (Rule.run_outcome _ _ ⟨#[], some 3, .nothingWritten, none⟩).2
      (by rw [written]; decide)
    rwa [written] at long

end WordSubst
