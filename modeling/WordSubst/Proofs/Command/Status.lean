import WordSubst.Command.Run
import WordSubst.Proofs.Rule.FirstFault
import WordSubst.Proofs.Stream.Sources

namespace WordSubst

theorem Pattern.parse_error {expr : String} {error : Error}
    (refused : Pattern.parse expr = .error error) :
    ∃ offset reason, error = .malformedEscape expr offset reason := by
  unfold Pattern.parse at refused
  split at refused
  · cases refused
  · cases refused
    exact ⟨_, _, rfl⟩

/-- Expressions are refused for what the caller wrote, never for an underlying cause. -/
theorem Rule.ofExprs_error {source target : String} {boundary : Bool} {error : Error}
    (refused : Rule.ofExprs source target boundary = .error error) :
    error.isUsage = true ∧ error.cause? = none := by
  rcases Rule.ofExprs_eq_error_iff.mp refused with unread | ⟨searched, _, unread | ⟨_, _, fault⟩⟩
  · obtain ⟨offset, reason, rfl⟩ := Pattern.parse_error unread
    exact ⟨rfl, rfl⟩
  · obtain ⟨offset, reason, rfl⟩ := Pattern.parse_error unread
    exact ⟨rfl, rfl⟩
  · cases fault <;> exact ⟨rfl, rfl⟩

namespace Command

theorem Result.stdout_ofOutcome (outcome : Outcome) :
    (Result.ofOutcome outcome).stdout = outcome.sink.held.toList := by
  unfold Result.ofOutcome
  split <;> rfl

/-- The standard output takes everything, so only reading can fail. -/
theorem Result.ofOutcome_settle (output : Bytes) (fault? : Option Fault) :
    Result.ofOutcome (Sink.unlimited.settle output fault?) =
      match fault? with
      | none => ⟨0, output, []⟩
      | some fault => .ofError output (.readInput fault) := by
  cases fault? <;> simp [ofOutcome, Sink.settle, Sink.write, Sink.unlimited]

section Run

variable {arguments : List Bytes} {request : Request} {rule : Rule}

theorem run_eq_ofOutcome (taken : Request.ofArguments arguments = .ok request)
    (made : Rule.ofExprs request.source request.target request.boundary = .ok rule)
    (directory : Directory) (stdin : List Delivery) :
    run arguments directory stdin =
      .ofOutcome (rule.runOn directory stdin request.paths .unlimited) := by
  simp only [run, taken, Request.run, made]

end Run

/-- A request is carried out in stages.  Expressions that make no rule are reported with
status 2; a file that cannot be opened, with status 1; in neither case is anything
written.  Otherwise what is written is what the rule makes of the joined inputs, and
the status is 1 exactly if one of them cannot be read to its end. -/
theorem run_of_request {arguments : List Bytes} {request : Request}
    (taken : Request.ofArguments arguments = .ok request) (directory : Directory)
    (stdin : List Delivery) :
    (∀ error, Rule.ofExprs request.source request.target request.boundary = .error error →
      error.isUsage = true ∧
        run arguments directory stdin = ⟨2, [], utf8 ("msub: " ++ error.message ++ "\n")⟩) ∧
    ∀ rule, Rule.ofExprs request.source request.target request.boundary = .ok rule →
      (∀ before path after fault, request.paths = before ++ path :: after →
        (∀ earlier ∈ before, directory.Opens earlier) →
        path ≠ standardInput → directory.locate path = .error fault →
        run arguments directory stdin = ⟨1, [], utf8 ("msub: " ++
          (Error.openInput path fault).message ++ ": " ++ fault.message ++ "\n")⟩) ∧
      ((∀ path ∈ request.paths, directory.Opens path) →
        ∀ joined, joined = Content.joined
          (directory.contents (.ofDeliveries stdin) request.paths) →
        (∀ deliveries, Content.ofDeliveries deliveries = joined →
          (run arguments directory stdin).stdout =
            (rule.run deliveries .unlimited).sink.held.toList) ∧
        match joined.fault? with
        | none => (run arguments directory stdin).status = 0 ∧
            (run arguments directory stdin).stderr = []
        | some fault => run arguments directory stdin =
            ⟨1, rule.replaceLines ((cutLines joined.text).filter isEnded), utf8 ("msub: " ++
              (Error.readInput fault).message ++ ": " ++ fault.message ++ "\n")⟩) := by
  constructor
  · intro error refused
    obtain ⟨usage, uncaused⟩ := Rule.ofExprs_error refused
    refine ⟨usage, ?_⟩
    simp only [run, taken, Request.run, refused, Result.ofError, statusOf, usage, if_true,
      Error.report, uncaused, complaint]
  · intro rule made
    have carried := run_eq_ofOutcome taken made directory stdin
    constructor
    · intro before path after fault listed opens input located
      rw [carried, listed, rule.runOn_of_refused stdin opens input located after]
      rfl
    · intro opens joined whole
      rw [rule.runOn_eq_settle stdin opens .unlimited whole] at carried
      constructor
      · intro deliveries known
        rw [carried, Result.stdout_ofOutcome, rule.run_eq_settle_content known]
      · rw [Result.ofOutcome_settle] at carried
        cases failed : joined.fault? with
        | none =>
            rw [carried, failed]
            exact ⟨rfl, rfl⟩
        | some fault =>
            rw [carried, failed, rule.written_of_fault failed]
            rfl

/-- The standard input comes in pieces and is named twice, and a directory is read after
it; then a file is missing, and then the patterns are at fault as well. -/
theorem run_of_request_standard_input_twice :
    ∃ directory, Directory.ofFiles [(utf8 "one", utf8 "cat a"), (utf8 "two", utf8 "t cat"),
        (utf8 "sub/three", utf8 "\n")] = .ok directory ∧
      run [utf8 "-b", utf8 "cat", utf8 "dog", utf8 "one", utf8 "-", utf8 "two", utf8 "-",
          utf8 "sub", utf8 "one"] directory
          [.chunk (utf8 "ca"), .interrupted, .chunk (utf8 "t\n")] =
        ⟨1, utf8 "dog acat\n", utf8 "msub: failed to read input: Is a directory (os error 21)\n"⟩ ∧
      run [utf8 "a", utf8 "b", utf8 "one", utf8 "four"] directory (utf8 "a") =
        ⟨1, [], utf8 "msub: four: No such file or directory (os error 2)\n"⟩ ∧
      run [utf8 "a,a", utf8 "b,c", utf8 "four"] directory [] =
        ⟨2, [], utf8 "msub: position 0 has duplicate branch \"a\"\n"⟩ := by
  refine ⟨_, rfl, ?_, ?_, ?_⟩
  · have taken : Request.ofArguments [utf8 "-b", utf8 "cat", utf8 "dog", utf8 "one", utf8 "-",
        utf8 "two", utf8 "-", utf8 "sub", utf8 "one"] = .ok ⟨true, "cat", "dog", [utf8 "one",
          utf8 "-", utf8 "two", utf8 "-", utf8 "sub", utf8 "one"]⟩ := by
      decide +kernel
    have made : Rule.ofExprs "cat" "dog" true =
        .ok (.ofTable ⟨[.mk [("cat", "dog")]]⟩ true) := by
      decide +kernel
    have written : (Rule.ofTable ⟨[.mk [("cat", "dog")]]⟩ true).replaceLines
        ((cutLines (utf8 "cat acat\nt cat")).filter isEnded) = utf8 "dog acat\n" := by
      decide +kernel
    rw [← written]
    refine (((run_of_request taken _ _).2 _ made).2 ?_
      ⟨utf8 "cat acat\nt cat", some .isDirectory⟩ (by decide +kernel)).2
    simp only [List.forall_mem_cons]
    exact ⟨.inr ⟨_, rfl⟩, .inl rfl, .inr ⟨_, rfl⟩, .inl rfl, .inr ⟨_, rfl⟩, .inr ⟨_, rfl⟩, nofun⟩
  · have taken : Request.ofArguments [utf8 "a", utf8 "b", utf8 "one", utf8 "four"] =
        .ok ⟨false, "a", "b", [utf8 "one", utf8 "four"]⟩ := by
      decide +kernel
    have made : Rule.ofExprs "a" "b" false = .ok (.ofTable ⟨[.mk [("a", "b")]]⟩ false) := by
      decide +kernel
    exact ((run_of_request taken _ _).2 _ made).1 [utf8 "one"] (utf8 "four") [] .notFound rfl
      (List.forall_mem_singleton.mpr (.inr ⟨_, rfl⟩)) (by decide) rfl
  · have taken : Request.ofArguments [utf8 "a,a", utf8 "b,c", utf8 "four"] =
        .ok ⟨false, "a,a", "b,c", [utf8 "four"]⟩ := by
      decide +kernel
    have refused : Rule.ofExprs "a,a" "b,c" false = .error (.duplicateBranch 0 "a") := by
      decide +kernel
    have reported : utf8 "msub: position 0 has duplicate branch \"a\"\n" =
        utf8 ("msub: " ++ (Error.duplicateBranch 0 "a").message ++ "\n") := by
      decide +kernel
    rw [reported]
    exact ((run_of_request taken _ _).1 _ refused).2

end Command

end WordSubst
