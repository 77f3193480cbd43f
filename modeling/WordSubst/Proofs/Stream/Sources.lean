import WordSubst.Proofs.Stream.Transcript
import WordSubst.Stream

namespace WordSubst

/-- Several contents as one.  Nothing is read after the first that has a fault. -/
def Content.joined (contents : List Content) : Content :=
  ⟨(contents.take (contents.findIdx (·.fault?.isSome) + 1)).flatMap (·.text),
    contents.findSome? (·.fault?)⟩

/-- A directory can be opened, but reading it fails at once. -/
def Place.content : Place → Content
  | file text => ⟨text, none⟩
  | inside _ | outside => ⟨[], some .isDirectory⟩

namespace Directory

def Opens (directory : Directory) (path : Bytes) : Prop :=
  path = standardInput ∨ ∃ place, directory.locate path = .ok place

/-- What a path contributes if it does not name the standard input. -/
def content (directory : Directory) (path : Bytes) : Content :=
  if path = standardInput then ⟨[], none⟩
  else
    match directory.locate path with
    | .ok place => place.content
    | .error _ => ⟨[], none⟩

/-- What the paths contribute in turn.  The first that names the standard input has
all of it; no path at all means the same as naming it. -/
def contents (directory : Directory) (stdin : Content) (paths : List Bytes) : List Content :=
  if paths = [] then [stdin]
  else (paths.map directory.content).set (paths.idxOf standardInput) stdin

end Directory

section Joined

variable {content : Content} {fault : Fault} {rest : List Content}

theorem Content.joined_cons_of_fault (failed : content.fault? = some fault) :
    Content.joined (content :: rest) = content := by
  obtain ⟨text, _⟩ := content
  cases failed
  simp [Content.joined, List.findIdx_cons]

theorem Content.joined_cons_of_none (readable : content.fault? = none) :
    Content.joined (content :: rest) =
      ⟨content.text ++ (Content.joined rest).text, (Content.joined rest).fault?⟩ := by
  simp [Content.joined, List.findIdx_cons, readable]

theorem firstFault?_append (first later : List Delivery) :
    firstFault? (first ++ later) = (firstFault? first).or (firstFault? later) := by
  induction first with
  | nil => rfl
  | cons delivery rest ih =>
      cases delivery with
      | chunk bytes => exact ih
      | interrupted => exact ih
      | failed fault => rfl

theorem delivered_append (first later : List Delivery) :
    delivered (first ++ later) =
      delivered first ++ if (firstFault? first).isSome then [] else delivered later := by
  induction first with
  | nil => rfl
  | cons delivery rest ih =>
      cases delivery with
      | chunk bytes =>
          rw [List.cons_append, delivered, delivered, ih, List.append_assoc]
          rfl
      | interrupted => exact ih
      | failed fault => rfl

/-- One stream after another, where what the later brings is already told. -/
theorem Content.ofDeliveries_append (first : List Delivery) {later : List Delivery}
    (known : Content.ofDeliveries later = .joined rest) :
    Content.ofDeliveries (first ++ later) = .joined (.ofDeliveries first :: rest) := by
  cases failed : firstFault? first with
  | some fault =>
      rw [joined_cons_of_fault failed]
      simp [ofDeliveries, delivered_append, firstFault?_append, failed]
  | none =>
      rw [joined_cons_of_none failed, ← known]
      simp [ofDeliveries, delivered_append, firstFault?_append, failed]

theorem Place.ofDeliveries_delivery (place : Place) :
    Content.ofDeliveries [place.delivery] = place.content := by
  cases place with
  | file text => simp [Content.ofDeliveries, delivery, delivered, firstFault?, content]
  | inside names => rfl
  | outside => rfl

end Joined

namespace Directory

variable {directory : Directory} {stdin : List Delivery} {path : Bytes} {paths : List Bytes}
  {fault : Fault} {place : Place}

@[simp] theorem content_standardInput (directory : Directory) :
    directory.content standardInput = ⟨[], none⟩ :=
  if_pos rfl

theorem content_of_locate (input : path ≠ standardInput)
    (located : directory.locate path = .ok place) : directory.content path = place.content := by
  rw [content, if_neg input, located]

/-- A standard input that is used up contributes nothing wherever it is named. -/
theorem set_content_standardInput (directory : Directory) (paths : List Bytes) :
    (paths.map directory.content).set (paths.idxOf standardInput) ⟨[], none⟩ =
      paths.map directory.content := by
  rw [← content_standardInput directory, ← List.map_set]
  by_cases named : standardInput ∈ paths
  · have inside := List.idxOf_lt_length_iff.mpr named
    have self := List.set_getElem_self inside
    rw [List.getElem_idxOf inside] at self
    rw [self]
  · rw [List.set_eq_of_length_le (Nat.le_of_eq (List.idxOf_eq_length named).symm)]

theorem contents_of_files {places : List Place} (stdin : Content) (nonempty : paths ≠ [])
    (files : standardInput ∉ paths)
    (located : List.Forall₂ (fun path place => directory.locate path = .ok place) paths places) :
    directory.contents stdin paths = places.map Place.content := by
  rw [contents, if_neg nonempty,
    List.set_eq_of_length_le (Nat.le_of_eq (by rw [List.length_map, List.idxOf_eq_length files]))]
  clear nonempty
  induction located with
  | nil => rfl
  | cons found _ ih =>
      simp only [List.mem_cons, not_or] at files
      rw [List.map_cons, List.map_cons, content_of_locate (Ne.symm files.1) found, ih files.2]

/-- The first input that cannot be opened is reported. -/
theorem openAll_eq_error {before : List Bytes} (opens : ∀ earlier ∈ before, directory.Opens earlier)
    (input : path ≠ standardInput) (located : directory.locate path = .error fault)
    (after : List Bytes) :
    directory.openAll stdin (before ++ path :: after) = .error (.openInput path fault) := by
  induction before generalizing stdin with
  | nil => simp only [List.nil_append, openAll, input, located, if_false]
  | cons first rest ih =>
      obtain ⟨opensFirst, opensRest⟩ := List.forall_mem_cons.mp opens
      by_cases first = standardInput
      case pos named =>
        rw [List.cons_append, openAll, if_pos named, ih opensRest]
        rfl
      case neg named =>
        obtain ⟨place, found⟩ := opensFirst.resolve_left named
        simp only [List.cons_append, openAll, if_neg named, found, ih opensRest]
        rfl

/-- Inputs that can all be opened are one stream with the joined content of all. -/
theorem openAll_eq_ok (stdin : List Delivery) (opens : ∀ path ∈ paths, directory.Opens path) :
    ∃ deliveries, directory.openAll stdin paths = .ok deliveries ∧
      Content.ofDeliveries deliveries =
        .joined ((paths.map directory.content).set (paths.idxOf standardInput)
          (.ofDeliveries stdin)) := by
  induction paths generalizing stdin with
  | nil => exact ⟨[], rfl, rfl⟩
  | cons path later ih =>
      obtain ⟨opensHere, opensLater⟩ := List.forall_mem_cons.mp opens
      by_cases path = standardInput
      case pos named =>
        -- The paths that follow find the standard input used up.
        obtain ⟨deliveries, opened, known⟩ := ih [] opensLater
        refine ⟨stdin ++ deliveries, ?_, ?_⟩
        · rw [openAll, if_pos named, opened]
          rfl
        · have used : Content.ofDeliveries [] = ⟨[], none⟩ := rfl
          rw [used, set_content_standardInput] at known
          rw [named, List.idxOf_cons_self, List.map_cons, List.set_cons_zero]
          exact Content.ofDeliveries_append stdin known
      case neg named =>
        obtain ⟨deliveries, opened, known⟩ := ih stdin opensLater
        obtain ⟨place, located⟩ := opensHere.resolve_left named
        refine ⟨place.delivery :: deliveries, ?_, ?_⟩
        · simp only [openAll, if_neg named, located, opened]
          rfl
        · rw [List.idxOf_cons_ne _ named, List.map_cons, List.set_cons_succ,
            content_of_locate named located, ← place.ofDeliveries_delivery]
          exact Content.ofDeliveries_append [place.delivery] known

end Directory

section Running

variable {directory : Directory} {paths before : List Bytes} {path : Bytes} {fault : Fault}

theorem Rule.written_of_fault (rule : Rule) {content : Content}
    (failed : content.fault? = some fault) :
    rule.written content = rule.replaceLines ((cutLines content.text).filter isEnded) := by
  simp only [written, completeLines, failed, Option.isSome_some, if_true]

theorem Rule.run_eq_settle_content (rule : Rule) {deliveries : List Delivery} {content : Content}
    (known : Content.ofDeliveries deliveries = content) (sink : Sink) :
    rule.run deliveries sink = sink.settle (rule.written content) content.fault? := by
  rw [← known]
  exact rule.run_eq_settle deliveries sink

theorem Rule.runOn_of_refused (rule : Rule) (stdin : List Delivery)
    (opens : ∀ earlier ∈ before, directory.Opens earlier) (input : path ≠ standardInput)
    (located : directory.locate path = .error fault) (after : List Bytes) (sink : Sink) :
    rule.runOn directory stdin (before ++ path :: after) sink =
      ⟨sink, some (.openInput path fault)⟩ := by
  have nonempty : (before ++ path :: after).isEmpty = false := by simp
  simp only [runOn, Directory.input, nonempty, Bool.false_eq_true, if_false,
    Directory.openAll_eq_error opens input located after]

theorem Rule.runOn_eq_settle (rule : Rule) (stdin : List Delivery)
    (opens : ∀ path ∈ paths, directory.Opens path) (sink : Sink) {joined : Content}
    (whole : joined = .joined (directory.contents (.ofDeliveries stdin) paths)) :
    rule.runOn directory stdin paths sink = sink.settle (rule.written joined) joined.fault? := by
  by_cases paths = []
  case pos nothing =>
    have single : Content.ofDeliveries (stdin ++ []) = joined := by
      rw [whole, Directory.contents, if_pos nothing]
      exact Content.ofDeliveries_append stdin rfl
    rw [List.append_nil] at single
    simp only [runOn, Directory.input, nothing, List.isEmpty_nil, if_true]
    exact rule.run_eq_settle_content single sink
  case neg nonempty =>
    obtain ⟨deliveries, opened, known⟩ := Directory.openAll_eq_ok stdin opens
    rw [Directory.contents, if_neg nonempty, ← known] at whole
    simp only [runOn, Directory.input, List.isEmpty_iff, nonempty, if_false, opened]
    exact rule.run_eq_settle_content whole.symm sink

end Running

/-- Several files are one stream.  If one of them cannot be opened, the first such is
reported and nothing is written.  Otherwise their texts are read one after the other
with nothing between them, up to the first that cannot be read: the lines complete by
then are written, and its fault is the outcome. -/
theorem Rule.runOn_files (rule : Rule) (directory : Directory) (stdin : List Delivery)
    {paths : List Bytes} (sink : Sink) (nonempty : paths ≠ []) (files : standardInput ∉ paths) :
    (∀ before path after fault, paths = before ++ path :: after →
      (∀ earlier ∈ before, ∃ place, directory.locate earlier = .ok place) →
      directory.locate path = .error fault →
      rule.runOn directory stdin paths sink = ⟨sink, some (.openInput path fault)⟩) ∧
    ∀ places, List.Forall₂ (fun path place => directory.locate path = .ok place) paths places →
      ∀ joined, joined = Content.joined (places.map Place.content) →
      (∀ deliveries, Content.ofDeliveries deliveries = joined →
        rule.runOn directory stdin paths sink = rule.run deliveries sink) ∧
      ∀ fault, joined.fault? = some fault →
        (∀ room ∈ sink.room,
          (rule.replaceLines ((cutLines joined.text).filter isEnded)).length ≤ room) →
        (rule.runOn directory stdin paths sink).sink.held.toList =
            sink.held.toList ++ rule.replaceLines ((cutLines joined.text).filter isEnded) ∧
          (rule.runOn directory stdin paths sink).error? = some (.readInput fault) := by
  constructor
  · rintro before path after fault rfl opens located
    have input : path ≠ standardInput := by
      rintro rfl
      exact files (by simp)
    exact rule.runOn_of_refused stdin (fun earlier member => .inr (opens earlier member)) input
      located after sink
  · intro places located joined whole
    have found : List.Forall₂
        (fun path place => directory.Opens path ∧ directory.locate path = .ok place) paths places :=
      located.imp fun _ place leads => ⟨.inr ⟨place, leads⟩, leads⟩
    have opens := ((List.forall₂_and_left paths places).mp found).1
    rw [← Directory.contents_of_files (.ofDeliveries stdin) nonempty files located] at whole
    have settled := rule.runOn_eq_settle stdin opens sink whole
    constructor
    · intro deliveries known
      rw [settled, rule.run_eq_settle_content known]
    · intro fault failed fits
      rw [settled, rule.written_of_fault failed, failed]
      simp only [Sink.settle, Sink.write_of_fits fits]
      exact ⟨Array.toList_appendList, trivial⟩

/-- A line that begins in one file and ends two files later, an empty file, a file read
twice, and a directory among the files; and two paths that cannot be opened. -/
theorem Rule.runOn_files_directory_between :
    ∃ rule directory paths, Rule.ofExprs "ab" "Z" false = .ok rule ∧
      Directory.ofFiles [(utf8 "one", utf8 "x\nab\r"), (utf8 "none", []),
        (utf8 "two", utf8 "\nca"), (utf8 "sub/three", utf8 "b")] = .ok directory ∧
      paths = [utf8 "one", utf8 "none", utf8 "two", utf8 "sub/three", utf8 "one", utf8 "sub",
        utf8 "two"] ∧
      (rule.runOn directory [] paths .unlimited).sink.held.toList = utf8 "x\nZ\ncZx\n" ∧
      (rule.runOn directory [] paths .unlimited).error? = some (.readInput .isDirectory) ∧
      rule.runOn directory [] [utf8 "sub", utf8 "two/three", utf8 "four"] .unlimited =
        ⟨.unlimited, some (.openInput (utf8 "two/three") .notDirectory)⟩ := by
  have made : Rule.ofExprs "ab" "Z" false = .ok (.ofTable ⟨[.mk [("ab", "Z")]]⟩ false) := by
    decide +kernel
  refine ⟨_, _, _, made, rfl, rfl, ?_⟩
  have located : List.Forall₂ (fun path place => Directory.locate ⟨[[utf8 "sub"]],
      [([utf8 "sub", utf8 "three"], utf8 "b"), ([utf8 "two"], utf8 "\nca"), ([utf8 "none"], []),
        ([utf8 "one"], utf8 "x\nab\r")]⟩ path = .ok place)
      [utf8 "one", utf8 "none", utf8 "two", utf8 "sub/three", utf8 "one", utf8 "sub", utf8 "two"]
      [.file (utf8 "x\nab\r"), .file [], .file (utf8 "\nca"), .file (utf8 "b"),
        .file (utf8 "x\nab\r"), .inside [utf8 "sub"], .file (utf8 "\nca")] :=
    .cons rfl (.cons rfl (.cons rfl (.cons rfl (.cons rfl (.cons rfl (.cons rfl .nil))))))
  have read := ((Rule.runOn_files (.ofTable ⟨[.mk [("ab", "Z")]]⟩ false) _ [] .unlimited
    (by decide) (by decide)).2 _ located ⟨utf8 "x\nab\r\ncabx\nab\r", some .isDirectory⟩
    (by decide)).2 _ rfl (fun _ limited => nomatch limited)
  have written : (Rule.ofTable ⟨[.mk [("ab", "Z")]]⟩ false).replaceLines
      ((cutLines (utf8 "x\nab\r\ncabx\nab\r")).filter isEnded) = utf8 "x\nZ\ncZx\n" := by
    decide +kernel
  rw [written] at read
  have refused := (Rule.runOn_files (.ofTable ⟨[.mk [("ab", "Z")]]⟩ false)
    ⟨[[utf8 "sub"]], [([utf8 "sub", utf8 "three"], utf8 "b"), ([utf8 "two"], utf8 "\nca"),
      ([utf8 "none"], []), ([utf8 "one"], utf8 "x\nab\r")]⟩ [] .unlimited (by decide)
    (by decide)).1 [utf8 "sub"] (utf8 "two/three") [utf8 "four"] .notDirectory rfl
    (List.forall_mem_singleton.mpr ⟨_, rfl⟩) rfl
  exact ⟨read.1, read.2, refused⟩

end WordSubst
