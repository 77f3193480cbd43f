import WordSubst.Proofs.Pattern.Malformed
import WordSubst.Proofs.Rule.FirstFault
import WordSubst.Proofs.Text.Quoted

namespace WordSubst

/-- The faults for which no rule is made. -/
inductive Error.OfPatterns : Error → Prop where
  | malformedEscape (expr : String) (offset : Nat) (fault : EscapeFault) :
      OfPatterns (.malformedEscape expr offset fault.reason)
  | positionCounts (source target : Nat) : OfPatterns (.positionCounts source target)
  | branchCounts (position source target : Nat) : OfPatterns (.branchCounts position source target)
  | duplicateBranch (position : Nat) (branch : String) :
      OfPatterns (.duplicateBranch position branch)

theorem Error.ofPatterns_of_refused {source target : String} {boundary : Bool} {error : Error}
    (refused : Rule.ofExprs source target boundary = .error error) : error.OfPatterns := by
  have unread : ∀ expr, Pattern.parse expr = .error error → error.OfPatterns := by
    intro expr failed
    obtain ⟨before, after, fault, _, rfl⟩ := Pattern.parse_eq_error_iff.mp failed
    exact .malformedEscape expr _ fault
  rcases Rule.ofExprs_eq_error_iff.mp refused with
    failed | ⟨searched, _, failed | ⟨replacing, _, fault⟩⟩
  · exact unread source failed
  · exact unread target failed
  · cases fault with
    | positionCounts _ => exact .positionCounts _ _
    | branchCounts _ _ _ => exact .branchCounts _ _ _
    | duplicateBranch _ _ _ _ _ _ => exact .duplicateBranch _ _

namespace Error

section Parts

variable {error other : Error}

theorem toList_malformedEscape (expr : String) (offset : Nat) (reason : String) :
    (malformedEscape expr offset reason).message.toList =
      "invalid escape at byte ".toList ++ ((toString offset).toList ++
        (" in pattern ".toList ++ ((Text.quote expr).toList ++
          (": ".toList ++ reason.toList)))) := by
  simp only [message.eq_def, String.toList_append, List.append_assoc]

theorem toList_positionCounts (source target : Nat) :
    (positionCounts source target).message.toList =
      "mismatch the number of sequences (FROM has ".toList ++ ((toString source).toList ++
        (", TO has ".toList ++ ((toString target).toList ++ ")".toList))) := by
  simp only [message.eq_def, String.toList_append, List.append_assoc]

theorem toList_branchCounts (position source target : Nat) :
    (branchCounts position source target).message.toList =
      "mismatch the number of branches at position ".toList ++ ((toString position).toList ++
        (" (FROM has ".toList ++ ((toString source).toList ++
          (", TO has ".toList ++ ((toString target).toList ++ ")".toList))))) := by
  simp only [message.eq_def, String.toList_append, List.append_assoc]

theorem toList_duplicateBranch (position : Nat) (branch : String) :
    (duplicateBranch position branch).message.toList =
      "position ".toList ++ ((toString position).toList ++
        (" has duplicate branch ".toList ++ (Text.quote branch).toList)) := by
  simp only [message.eq_def, String.toList_append, List.append_assoc]

/-- What a message begins with.  It tells the kind of the error. -/
def opening : Error → String
  | malformedEscape .. => "invalid escape at byte "
  | positionCounts .. => "mismatch the number of sequences (FROM has "
  | branchCounts .. => "mismatch the number of branches at position "
  | duplicateBranch .. => "position "
  | unusableRegex .. | openInput .. | readInput _ | writeOutput _ => ""

def openings : List String :=
  ["invalid escape at byte ", "mismatch the number of sequences (FROM has ",
    "mismatch the number of branches at position ", "position "]

theorem OfPatterns.begins (fault : error.OfPatterns) :
    error.opening ∈ openings ∧ error.opening.toList <+: error.message.toList := by
  cases fault with
  | malformedEscape expr offset fault =>
      rw [toList_malformedEscape]
      exact ⟨.head _, List.prefix_append _ _⟩
  | positionCounts source target =>
      rw [toList_positionCounts]
      exact ⟨.tail _ (.head _), List.prefix_append _ _⟩
  | branchCounts position source target =>
      rw [toList_branchCounts]
      exact ⟨.tail _ (.tail _ (.head _)), List.prefix_append _ _⟩
  | duplicateBranch position branch =>
      rw [toList_duplicateBranch]
      exact ⟨.tail _ (.tail _ (.tail _ (.head _))), List.prefix_append _ _⟩

/-- No opening begins another, so messages that are equal begin alike. -/
theorem OfPatterns.opening_eq (fault : error.OfPatterns) (faultToo : other.OfPatterns)
    (same : error.message = other.message) : error.opening = other.opening := by
  have apart : ∀ first ∈ openings, ∀ second ∈ openings,
      first.toList <+: second.toList → first = second := by
    decide +kernel
  obtain ⟨listed, begins⟩ := fault.begins
  obtain ⟨listedToo, beginsToo⟩ := faultToo.begins
  rw [same] at begins
  rcases List.prefix_or_prefix_of_prefix begins beginsToo with shorter | longer
  · exact apart _ listed _ listedToo shorter
  · exact (apart _ listedToo _ listed longer).symm

end Parts

/-- A number is told by what follows it, if that does not begin with a digit. -/
theorem toString_append_inj {number numberToo : Nat} {mark : String} {rest other : List Char}
    (apart : mark.toList.head?.any (fun c => c.toLower ∉ digitChars) = true)
    (same : (toString number).toList ++ (mark.toList ++ rest) =
      (toString numberToo).toList ++ (mark.toList ++ other)) :
    number = numberToo ∧ rest = other := by
  cases marked : mark.toList with
  | nil => simp [marked] at apart
  | cons stop after =>
      rw [marked, Nat.toString_eq_ofList_toDigits, Nat.toString_eq_ofList_toDigits,
        String.toList_ofList, String.toList_ofList] at same
      have nondigit : stop.toLower ∉ digitChars := by simpa [marked] using apart
      obtain ⟨numbers, onward⟩ :=
        Text.toDigits_append_inj (by decide) (by decide) nondigit same
      exact ⟨numbers, List.append_cancel_left onward⟩

theorem toString_inj {number numberToo : Nat}
    (same : (toString number).toList = (toString numberToo).toList) : number = numberToo := by
  rw [Nat.toString_eq_ofList_toDigits, Nat.toString_eq_ofList_toDigits, String.toList_ofList,
    String.toList_ofList] at same
  exact toDigits_injective (by decide) (by decide) same

theorem malformedEscape_inj {expr exprToo reason reasonToo : String} {offset offsetToo : Nat}
    (same : (malformedEscape expr offset reason).message =
      (malformedEscape exprToo offsetToo reasonToo).message) :
    malformedEscape expr offset reason = malformedEscape exprToo offsetToo reasonToo := by
  have texts := congrArg String.toList same
  rw [toList_malformedEscape, toList_malformedEscape] at texts
  obtain ⟨rfl, onward⟩ := toString_append_inj (by decide) (List.append_cancel_left texts)
  obtain ⟨rfl, reasons⟩ := Text.quote_append_inj onward
  rw [String.toList_inj.mp (List.append_cancel_left reasons)]

theorem positionCounts_inj {source sourceToo target targetToo : Nat}
    (same : (positionCounts source target).message = (positionCounts sourceToo targetToo).message) :
    positionCounts source target = positionCounts sourceToo targetToo := by
  have texts := congrArg String.toList same
  rw [toList_positionCounts, toList_positionCounts] at texts
  obtain ⟨rfl, onward⟩ := toString_append_inj (by decide) (List.append_cancel_left texts)
  rw [toString_inj (List.append_cancel_right onward)]

theorem branchCounts_inj {position positionToo source sourceToo target targetToo : Nat}
    (same : (branchCounts position source target).message =
      (branchCounts positionToo sourceToo targetToo).message) :
    branchCounts position source target = branchCounts positionToo sourceToo targetToo := by
  have texts := congrArg String.toList same
  rw [toList_branchCounts, toList_branchCounts] at texts
  obtain ⟨rfl, sources⟩ := toString_append_inj (by decide) (List.append_cancel_left texts)
  obtain ⟨rfl, targets⟩ := toString_append_inj (by decide) sources
  rw [toString_inj (List.append_cancel_right targets)]

theorem duplicateBranch_inj {position positionToo : Nat} {branch branchToo : String}
    (same : (duplicateBranch position branch).message =
      (duplicateBranch positionToo branchToo).message) :
    duplicateBranch position branch = duplicateBranch positionToo branchToo := by
  have texts := congrArg String.toList same
  rw [toList_duplicateBranch, toList_duplicateBranch] at texts
  obtain ⟨rfl, quoted⟩ := toString_append_inj (by decide) (List.append_cancel_left texts)
  have closed : (Text.quote branch).toList ++ [] = (Text.quote branchToo).toList ++ [] := by
    rw [List.append_nil, List.append_nil, quoted]
  rw [(Text.quote_append_inj closed).1]

section OfPatterns

variable {error other : Error}

theorem OfPatterns.message_inj (fault : error.OfPatterns) (faultToo : other.OfPatterns)
    (same : error.message = other.message) : error = other := by
  -- The openings tell the kind; messages of one kind are then taken apart field by field.
  have openings := fault.opening_eq faultToo same
  cases fault with
  | malformedEscape expr offset fault =>
      cases faultToo with
      | malformedEscape _ _ _ => exact malformedEscape_inj same
      | positionCounts _ _ | branchCounts _ _ _ | duplicateBranch _ _ =>
          simp [opening] at openings
  | positionCounts source target =>
      cases faultToo with
      | positionCounts _ _ => exact positionCounts_inj same
      | malformedEscape _ _ _ | branchCounts _ _ _ | duplicateBranch _ _ =>
          simp [opening] at openings
  | branchCounts position source target =>
      cases faultToo with
      | branchCounts _ _ _ => exact branchCounts_inj same
      | malformedEscape _ _ _ | positionCounts _ _ | duplicateBranch _ _ =>
          simp [opening] at openings
  | duplicateBranch position branch =>
      cases faultToo with
      | duplicateBranch _ _ => exact duplicateBranch_inj same
      | malformedEscape _ _ _ | positionCounts _ _ | branchCounts _ _ _ =>
          simp [opening] at openings

theorem isControl_eq_false_of_mem_toString (number : Nat) :
    ∀ c ∈ (toString number).toList, Text.isControl c = false := by
  rw [Nat.toString_eq_ofList_toDigits, String.toList_ofList]
  exact Text.isControl_eq_false_of_mem_toDigits (by decide) (by decide) number

theorem OfPatterns.isControl_eq_false (fault : error.OfPatterns) :
    ∀ c ∈ error.message.toList, Text.isControl c = false := by
  have written := @Text.isControl_eq_false_of_any
  have number := isControl_eq_false_of_mem_toString
  have quoted := Text.isControl_eq_false_of_mem_quote
  cases fault with
  | malformedEscape expr offset fault =>
      have reason : ∀ c ∈ fault.reason.toList, Text.isControl c = false := by
        cases fault <;> exact written (by decide)
      rw [toList_malformedEscape]
      simp only [List.forall_mem_append]
      exact ⟨written (by decide), number offset, written (by decide), quoted expr,
        written (by decide), reason⟩
  | positionCounts source target =>
      rw [toList_positionCounts]
      simp only [List.forall_mem_append]
      exact ⟨written (by decide), number source, written (by decide), number target,
        written (by decide)⟩
  | branchCounts position source target =>
      rw [toList_branchCounts]
      simp only [List.forall_mem_append]
      exact ⟨written (by decide), number position, written (by decide), number source,
        written (by decide), number target, written (by decide)⟩
  | duplicateBranch position branch =>
      rw [toList_duplicateBranch]
      simp only [List.forall_mem_append]
      exact ⟨written (by decide), number position, written (by decide), quoted branch⟩

end OfPatterns

end Error

/-- The message that refuses a rule is one line, and no other error has the same message:
whatever the expressions hold, it tells the kind of the error and all that it names. -/
theorem Rule.refused_message {source target otherSource otherTarget : String}
    {boundary otherBoundary : Bool} {error other : Error}
    (refused : Rule.ofExprs source target boundary = .error error)
    (refusedToo : Rule.ofExprs otherSource otherTarget otherBoundary = .error other) :
    (∀ c ∈ error.message.toList, Text.isControl c = false) ∧
      (error.message = other.message → error = other) := by
  have fault := Error.ofPatterns_of_refused refused
  have faultToo := Error.ofPatterns_of_refused refusedToo
  exact ⟨fault.isControl_eq_false, fault.message_inj faultToo⟩

/-- A branch that holds a line feed, and one that holds what is written for it; both hold
a quotation mark. -/
theorem Rule.refused_message_line_feed :
    Rule.ofExprs "\n\",\n\"" "1,2" false = .error (.duplicateBranch 0 "\n\"") ∧
      Rule.ofExprs "\\\\n\",\\\\n\"" "1,2" true = .error (.duplicateBranch 0 "\\n\"") ∧
      (∀ c ∈ (Error.duplicateBranch 0 "\n\"").message.toList, Text.isControl c = false) ∧
      (Error.duplicateBranch 0 "\n\"").message ≠ (Error.duplicateBranch 0 "\\n\"").message := by
  have refused : Rule.ofExprs "\n\",\n\"" "1,2" false = .error (.duplicateBranch 0 "\n\"") := by
    decide +kernel
  have refusedToo : Rule.ofExprs "\\\\n\",\\\\n\"" "1,2" true =
      .error (.duplicateBranch 0 "\\n\"") := by
    decide +kernel
  obtain ⟨oneLine, unique⟩ := Rule.refused_message refused refusedToo
  have differ : Error.duplicateBranch 0 "\n\"" ≠ .duplicateBranch 0 "\\n\"" := by decide
  exact ⟨refused, refusedToo, oneLine, fun same => differ (unique same)⟩

end WordSubst
